import AbletonTracks.Server.Facts

/-!
# Steps that only read the shared state

Whatever the server does by itself leaves the songs and the transport alone,
and a state that it sends on the way shows them as they are.  Only a coroutine
that is resumed may send a text that was fixed before.
-/

namespace AbletonTracks

open Library

namespace Fact

variable {α : Type} {fact : Fact α} {s after : System} {c : Coroutine}
  {next : Next} {sending : Sending}

/-- The fact stays, and whatever was sent since tells it. -/
structure Quiet (fact : Fact α) (s after : System) : Prop where
  current : fact.current after.ableton.state = fact.current s.ableton.state
  truthful : fact.Truthful (fact.current s.ableton.state) s after

theorem quiet_of_sent
    (current :
      fact.current after.ableton.state = fact.current s.ableton.state)
    (sent : after.sent = s.sent) :
    fact.Quiet s after :=
  ⟨current, [], by rw [sent, List.append_nil], by simp⟩

theorem Quiet.trans
    {middle : System}
    (first : fact.Quiet s middle)
    (second : fact.Quiet middle after) :
    fact.Quiet s after := by
  obtain ⟨same, early, before, told⟩ := first
  obtain ⟨same', late, later, told'⟩ := second
  rw [same] at told'
  refine ⟨same'.trans same, early ++ late, ?_, ?_⟩
  · rw [later, before, List.append_assoc]
  · rw [List.forall_mem_append]
    exact ⟨told, told'⟩

/-- No text on a to-do list tells the fact. -/
def Plain (fact : Fact α) (todo : List Todo) : Prop :=
  ∀ message, (.broadcast message ∈ todo ∨ ∃ ws, .deliver ws message ∈ todo) →
    fact.shown message = none

theorem plain_of_transition
    {m joined : ConnectionManager} {op : Op} {todo : List Todo}
    (branch : m.Transition op joined todo) :
    fact.Plain todo := by
  rintro message (member | ⟨ws, member⟩)
  · exact (branch.safe _ member).elim
  · exact (branch.safe _ member).elim

theorem quiet_suspend
    {todo : List Todo}
    (plain : fact.Plain todo)
    (found : s.manager.nextSend s.ableton.state todo = .ok (some sending)) :
    fact.Quiet s (s.suspend c sending next) := by
  refine ⟨rfl, _, rfl, ?_⟩
  intro sent member shown shows
  obtain rfl := List.mem_singleton.mp member
  obtain ⟨skipped, entry, later, first, rfl, _, sends, rfl⟩ :=
    ConnectionManager.nextSend_eq_some found
  cases sends with
  | push built | sendState built | sendSnapshot built
  | broadcastFullState _ built =>
      exact Option.some.inj (shows.symm.trans (shown_of_snapshotFor built))
  | broadcast =>
      cases (plain _ (Or.inl (by simp))).symm.trans shows
  | @deliver socket message =>
      cases (plain message (Or.inr ⟨socket, by simp⟩)).symm.trans shows
  | _ => cases shows

theorem quiet_runLast
    {todo : List Todo}
    (plain : fact.Plain todo) :
    fact.Quiet s (s.runLast c todo) := by
  unfold System.runLast
  split
  · exact quiet_of_sent rfl rfl
  · exact quiet_of_sent rfl rfl
  · rename_i found
    exact quiet_suspend plain found

theorem quiet_unwind : fact.Quiet s (s.unwind c) := by
  unfold System.unwind
  split
  · exact quiet_of_sent rfl rfl
  · split
    · exact quiet_of_sent rfl rfl
    · rename_i m todo applied
      have plain : fact.Plain todo := plain_of_transition
        (ConnectionManager.transition_of_apply applied)
      have operated : fact.Quiet s { s with manager := m } :=
        quiet_of_sent rfl rfl
      exact operated.trans (quiet_runLast plain)

theorem quiet_performAll
    (origin : Option WebSocket)
    (effects : List Effect)
    (onlySends : ∀ effect ∈ effects, ∃ command, effect = .send command) :
    fact.Quiet s (s.performAll origin effects) := by
  obtain ⟨commands, same⟩ := System.performAll_of_sends origin effects
    onlySends
  rw [same]
  exact quiet_of_sent rfl rfl

theorem quiet_land (ws : WebSocket) (jump : Jump) :
    fact.Quiet s (s.land ws jump) := by
  have fires : ∀ effect ∈
      (s.ableton.fireCueClipForSection jump.target.name).2,
      ∃ command, effect = .send command := by
    intro effect member
    unfold AbletonBridge.fireCueClipForSection at member
    split at member
    · cases member
    · exact ⟨_, List.mem_singleton.mp member⟩
  simp only [System.land]
  split
  · obtain ⟨commands, same⟩ := System.performAll_of_sends (some ws) _ fires
    rw [same]
    exact quiet_of_sent rfl rfl
  · obtain ⟨commands, same⟩ := System.performAll_of_sends (some ws)
      (AbletonBridge.jumpToCueIndex jump.target.cueIndex)
      fun effect member => ⟨_, List.mem_singleton.mp member⟩
    rw [same]
    exact quiet_of_sent rfl rfl

theorem quiet_conclude : fact.Quiet s (s.conclude c next) := by
  cases next with
  | receive | finish => exact quiet_of_sent rfl rfl
  | leave => exact quiet_unwind
  | land jump =>
      cases c with
      | task number => exact quiet_of_sent rfl rfl
      | handler ws =>
          exact (quiet_land ws jump).trans (quiet_of_sent rfl rfl)

theorem quiet_run
    {todo : List Todo}
    (plain : fact.Plain todo) :
    fact.Quiet s (s.run c todo next) := by
  unfold System.run
  split
  · exact quiet_unwind
  · exact quiet_conclude
  · rename_i found
    exact quiet_suspend plain found

theorem quiet_operate (op : Op) :
    fact.Quiet s (s.operate c op next) := by
  unfold System.operate
  split
  · exact quiet_unwind
  · rename_i m todo applied
    have plain : fact.Plain todo := plain_of_transition
      (ConnectionManager.transition_of_apply applied)
    have operated : fact.Quiet s { s with manager := m } :=
      quiet_of_sent rfl rfl
    exact operated.trans (quiet_run plain)

theorem quiet_handleJump (ws : WebSocket) (songIndex sectionIndex : Option Int) :
    fact.Quiet s (s.handleJump ws songIndex sectionIndex) := by
  unfold System.handleJump
  split
  · split
    · exact quiet_of_sent rfl rfl
    · rename_i songIndex sectionIndex _ target _
      generalize System.jumpTo s.ableton.state target = jump
      have queued : fact.Quiet s (s.queue songIndex sectionIndex jump) :=
        quiet_of_sent (fact.queued _ _ _ _) rfl
      refine (queued.trans (quiet_performAll (some ws) _ fun effect member =>
        System.loopFor_sends member)).trans (quiet_run ?_)
      rintro message (member | ⟨_, member⟩)
      · cases List.mem_singleton.mp member
        rfl
      · cases List.mem_singleton.mp member
  · exact quiet_of_sent rfl rfl

theorem quiet_stop (ws : WebSocket) : fact.Quiet s (s.stop ws) := by
  have performed : fact.Quiet s
      (s.performAll (some ws) AbletonBridge.stopPlayback) :=
    quiet_performAll (some ws) _ fun effect member =>
      ⟨_, List.mem_singleton.mp member⟩
  exact performed.trans (quiet_of_sent (fact.queued _ _ _ _) rfl)

theorem quiet_obey (ws : WebSocket) (message : ClientMessage) :
    fact.Quiet s (s.obey ws message) := by
  have rests : fact.Quiet s s := quiet_of_sent rfl rfl
  unfold System.obey
  cases message with
  | jump songIndex sectionIndex => exact quiet_handleJump ws _ _
  | muteTrack trackIndex muted =>
      cases trackIndex with
      | none => exact quiet_unwind
      | some index =>
          dsimp only
          split
          · exact rests
          · split
            · exact quiet_performAll (some ws) _ fun effect member =>
                ⟨_, List.mem_singleton.mp member⟩
            · exact quiet_unwind
  | play | generateCues =>
      exact quiet_performAll (some ws) _ fun effect member =>
        ⟨_, List.mem_singleton.mp member⟩
  | stop => exact quiet_stop ws
  | releaseControl | respondControl | grantControl => exact quiet_operate _
  | _ => exact rests

theorem quiet_hear (ws : WebSocket) (message : ClientMessage) :
    fact.Quiet s (s.hear ws message) := by
  have rests : fact.Quiet s s := quiet_of_sent rfl rfl
  have obeyed : fact.Quiet s
      (if s.manager.isPrimary ws then s.obey ws message else s) := by
    split
    · exact quiet_obey ws message
    · exact rests
  unfold System.hear
  cases message with
  | badJson => exact rests
  | notAnObject => exact quiet_unwind
  | refresh =>
      obtain ⟨commands, same⟩ := s.performAll_refresh (some ws)
      have performed : fact.Quiet s { s with commands := commands } :=
        quiet_of_sent rfl rfl
      simp only [same]
      refine performed.trans (quiet_run ?_)
      rintro message (member | ⟨_, member⟩)
      · cases List.mem_singleton.mp member
      · cases List.mem_singleton.mp member
  | register | requestControl | cancelControlRequest => exact quiet_operate _
  | _ => exact obeyed

variable {event : System.Event}

/-- What the server does by itself, other than to go on with a coroutine. -/
theorem quiet_exec
    (unresumed : ∀ c raised, event ≠ .resume c raised)
    (remote : ∀ reported, event ≠ .ableton reported)
    (taken : s.exec event = some after) :
    fact.Quiet s after := by
  cases event with
  | accept ws params connectionId =>
      simp only [System.exec] at taken
      split at taken
      · obtain rfl := Option.some.inj taken
        obtain ⟨commands, same⟩ := s.performAll_refresh (some ws)
        rw [same]
        have performed : fact.Quiet s { s with commands := commands } :=
          quiet_of_sent rfl rfl
        exact performed.trans (quiet_operate _)
      · cases taken
  | receive ws message =>
      obtain ⟨_, rfl⟩ := System.hear_of_receive taken
      exact quiet_hear ws message
  | hangUp ws =>
      simp only [System.exec] at taken
      split at taken
      · obtain rfl := Option.some.inj taken
        exact quiet_unwind
      · cases taken
  | resume c raised => exact absurd rfl (unresumed c raised)
  | fire timer =>
      simp only [System.exec, System.fire] at taken
      split at taken
      · cases taken
      · split at taken
        · obtain rfl := Option.some.inj taken
          have numbered : fact.Quiet s { s with nextTask := s.nextTask + 1 } :=
            quiet_of_sent rfl rfl
          exact numbered.trans (quiet_operate _)
        · cases taken
  | peerGone ws =>
      obtain rfl := Option.some.inj taken
      exact quiet_of_sent rfl rfl
  | wait time =>
      simp only [System.exec] at taken
      split at taken
      · obtain rfl := Option.some.inj taken
        exact quiet_of_sent rfl rfl
      · cases taken
  | ableton reported => exact absurd rfl (remote reported)

end Fact
end AbletonTracks
