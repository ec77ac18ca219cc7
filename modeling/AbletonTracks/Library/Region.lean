import Mathlib.Data.List.Infix
import Mathlib.Data.List.Induction

/-!
# A region behind a switch

A device keeps a region, whose start and extent are set by separate messages,
and a switch that turns the region on.  A request binds a region, by setting
both values before it turns the switch on, or releases whatever is bound.

A request that binds a region while another one is bound passes through their
mixture: the new start with the old extent.
-/

namespace Library

universe u v

/-- A message to the device. -/
inductive RegionMessage (α : Type u) (β : Type v)
  | start (value : α)
  | extent (value : β)
  | switch (on : Bool)
  deriving DecidableEq

/-- What the device keeps. -/
structure Region (α : Type u) (β : Type v) where
  on : Bool
  start : α
  extent : β
  deriving DecidableEq

namespace Region

variable {α : Type u} {β : Type v} {allowed : α → β → Prop}
  {region : Region α β}
  {past : List (Option (α × β))} {request : Option (α × β)}

/-- The device hears a message. -/
def hear (region : Region α β) : RegionMessage α β → Region α β
  | .start value => { region with start := value }
  | .extent value => { region with extent := value }
  | .switch on => { region with on := on }

/-- The device after a list of messages. -/
def after (region : Region α β) (messages : List (RegionMessage α β)) :
    Region α β :=
  messages.foldl hear region

/-- The messages of a request: bind a region, or release it. -/
def messages : Option (α × β) → List (RegionMessage α β)
  | some (start, extent) => [.start start, .extent extent, .switch true]
  | none => [.switch false]

/-- The messages of requests in order. -/
def stream (requests : List (Option (α × β))) : List (RegionMessage α β) :=
  requests.flatMap messages

theorem after_append
    (region : Region α β)
    (early late : List (RegionMessage α β)) :
    region.after (early ++ late) = (region.after early).after late :=
  List.foldl_append

theorem stream_append
    (early late : List (Option (α × β))) :
    stream (early ++ late) = stream early ++ stream late :=
  List.flatMap_append

theorem stream_snoc
    (past : List (Option (α × β)))
    (request : Option (α × β)) :
    stream (past ++ [request]) = stream past ++ messages request := by
  simp [stream]

/-! ## The last request decides -/

/-- After a request that binds a region, exactly that region is on. -/
theorem after_bind
    (region : Region α β)
    (past : List (Option (α × β)))
    (bound : α × β) :
    region.after (stream (past ++ [some bound])) =
      ⟨true, bound.1, bound.2⟩ := by
  rw [stream_snoc, after_append]
  rfl

/-- After a request that releases it, no region is on. -/
theorem off_after_release
    (region : Region α β)
    (past : List (Option (α × β))) :
    (region.after (stream (past ++ [none]))).on = false := by
  rw [stream_snoc, after_append]
  rfl

/-- From a region that is off, requests leave a region off, or the one that
the last of them binds. -/
theorem after_stream_cases
    (off : region.on = false)
    (past : List (Option (α × β))) :
    (past.getLast?.join = none ∧ (region.after (stream past)).on = false) ∨
      ∃ bound, past.getLast?.join = some bound ∧
        region.after (stream past) = ⟨true, bound.1, bound.2⟩ := by
  cases past using List.reverseRecOn with
  | nil => exact Or.inl ⟨rfl, off⟩
  | append_singleton early last =>
      rw [List.getLast?_concat]
      cases last with
      | none => exact Or.inl ⟨rfl, off_after_release region early⟩
      | some bound => exact Or.inr ⟨bound, rfl, after_bind region early bound⟩

/-! ## Between the messages of a request -/

/-- The region is off, or its start and its extent go together. -/
def Within (allowed : α → β → Prop) (region : Region α β) : Prop :=
  region.on = true → allowed region.start region.extent

/-- After every message of a request, the start and the extent of the region
go together. -/
def Unmixed
    (allowed : α → β → Prop)
    (region : Region α β)
    (request : Option (α × β)) : Prop :=
  ∀ part, part <+: messages request → (region.after part).Within allowed

/-- The request binds a region while another one is bound, and its start does
not go with the extent of the other. -/
def Mixes
    (allowed : α → β → Prop)
    (past : List (Option (α × β)))
    (request : Option (α × β)) : Prop :=
  ∃ bound ∈ past.getLast?.join, ∃ next ∈ request, ¬allowed next.1 bound.2

theorem unmixed_iff_forall_inits :
    Unmixed allowed region request ↔
      ∀ part ∈ (messages request).inits,
        (region.after part).Within allowed := by
  simp only [Unmixed, List.mem_inits]

/-- A request never mixes with a region that is off. -/
theorem unmixed_of_off
    (off : region.on = false)
    (requested : ∀ next ∈ request, allowed next.1 next.2) :
    Unmixed allowed region request := by
  rw [unmixed_iff_forall_inits]
  cases request with
  | none => simp [messages, Within, after, hear, off]
  | some next =>
      have own := requested next rfl
      simp [messages, Within, after, hear, off, own]

/-- A request mixes with a region that is on, unless the start of the one goes
with the extent of the other. -/
theorem unmixed_iff_of_bound
    {start : α} {extent : β}
    (bound : allowed start extent)
    (requested : ∀ next ∈ request, allowed next.1 next.2) :
    Unmixed allowed ⟨true, start, extent⟩ request ↔
      ∀ next ∈ request, allowed next.1 extent := by
  rw [unmixed_iff_forall_inits]
  cases request with
  | none => simp [messages, Within, after, hear, bound]
  | some next =>
      have own := requested next rfl
      simp [messages, Within, after, hear, bound, own]

/-- After each request the region is within what the requests ask for. -/
theorem within_after_stream
    (off : region.on = false)
    (requested : ∀ bound, some bound ∈ past → allowed bound.1 bound.2) :
    (region.after (stream past)).Within allowed := by
  intro on
  rcases after_stream_cases off past with ⟨_, still⟩ | ⟨bound, last, same⟩
  · rw [still] at on
    cases on
  · rw [same]
    apply requested
    exact List.mem_of_getLast? (Option.join_eq_some_iff.mp last)

/-- From a region that is off, the messages of a request stay unmixed exactly
when it does not mix with the request before it. -/
theorem unmixed_after_stream_iff
    (off : region.on = false)
    (earlier : ∀ bound, some bound ∈ past → allowed bound.1 bound.2)
    (requested : ∀ next ∈ request, allowed next.1 next.2) :
    Unmixed allowed (region.after (stream past)) request ↔
      ¬Mixes allowed past request := by
  rcases after_stream_cases off past with ⟨last, still⟩ | ⟨bound, last, same⟩
  · refine iff_of_true (unmixed_of_off still requested) ?_
    simp [Mixes, last]
  · have member := List.mem_of_getLast? (Option.join_eq_some_iff.mp last)
    rw [same, unmixed_iff_of_bound (earlier bound member) requested]
    simp [Mixes, last]

end Region
end Library
