import AbletonTracks.Library.Dict
import AbletonTracks.Library.Sorting
import AbletonTracks.Library.Timeline
import AbletonTracks.Library.Runs
import AbletonTracks.Library.Rounding
import AbletonTracks.Library.Floating
import AbletonTracks.Library.Text
import AbletonTracks.Library.Matching
import AbletonTracks.Library.Json
import AbletonTracks.Library.Bytes
import AbletonTracks.Library.Floats
import AbletonTracks.Library.Reading
import AbletonTracks.Library.Alarm
import AbletonTracks.Library.Region
import AbletonTracks.Library.Grid
import AbletonTracks.Library.Toggle
import AbletonTracks.State
import AbletonTracks.Messages
import AbletonTracks.Manager.Defs
import AbletonTracks.Manager.Steps
import AbletonTracks.Manager.Transitions
import AbletonTracks.Manager.Timers
import AbletonTracks.Manager.Invariant
import AbletonTracks.Manager.Consistency
import AbletonTracks.Manager.Answerable
import AbletonTracks.Manager.Sending
import AbletonTracks.Manager.Outcome
import AbletonTracks.Manager.Promotion
import AbletonTracks.Manager.Hold
import AbletonTracks.Manager.Rejoin
import AbletonTracks.Manager.Legacy
import AbletonTracks.Parser
import AbletonTracks.Parser.Songs
import AbletonTracks.Parser.Tree
import AbletonTracks.Parser.Current
import AbletonTracks.Parser.CueIndex
import AbletonTracks.Parser.Headers
import AbletonTracks.Parser.Ties
import AbletonTracks.Bridge.Defs
import AbletonTracks.Bridge.CueCache
import AbletonTracks.Bridge.Place
import AbletonTracks.Bridge.Sections
import AbletonTracks.Bridge.Retarget
import AbletonTracks.Bridge.ClipPath
import AbletonTracks.Bridge.Watchdog
import AbletonTracks.Server.Defs
import AbletonTracks.Server.Sends
import AbletonTracks.Server.Moves
import AbletonTracks.Server.Steps
import AbletonTracks.Server.Driving
import AbletonTracks.Server.Indices
import AbletonTracks.Server.Control
import AbletonTracks.Server.Topics
import AbletonTracks.Server.Jumps
import AbletonTracks.Server.Landing
import AbletonTracks.Server.Loops
import AbletonTracks.Server.Bars
import AbletonTracks.Server.Retargets
import AbletonTracks.Server.Queue
import AbletonTracks.Server.Roles
import AbletonTracks.Server.FullState
import AbletonTracks.Server.Convergence
import AbletonTracks.Server.Frames
import AbletonTracks.Server.Operations
import AbletonTracks.Server.Requests
import AbletonTracks.Remote.Song
import AbletonTracks.Remote.Taps
import AbletonTracks.Remote.Analysis
import AbletonTracks.Remote.Replacing
import AbletonTracks.Remote.Tracks
import AbletonTracks.Remote.Generating
import AbletonTracks.Remote.Beats
import AbletonTracks.Remote.Bodies
import AbletonTracks.Remote.CueClips
import AbletonTracks.Remote.TrackPoll
import AbletonTracks.Osc.Types
import AbletonTracks.Osc.Message
import AbletonTracks.Osc.RoundTrip
import AbletonTracks.Osc.Channel
import AbletonTracks.Osc.Bundle
import AbletonTracks.Osc.Depth
import AbletonTracks.Remote.Listeners
import AbletonTracks.Remote.OscServer
import AbletonTracks.Library.Spacing
import AbletonTracks.Library.Pattern
import AbletonTracks.Bridge.Analyzer
import AbletonTracks.Parser.Headed
import AbletonTracks.Parser.SetList
import AbletonTracks.Remote.Guide
import AbletonTracks.Remote.Mutes
import AbletonTracks.Bridge.Meters
import AbletonTracks.Library.Stutter
import AbletonTracks.Remote.BeatFeed
import AbletonTracks.Server.Facts
import AbletonTracks.Server.Quiet
import AbletonTracks.Server.Told
import AbletonTracks.Remote.Display
