import AbletonTracks.Library.Dict
import AbletonTracks.Library.Runs

/-!
# Listeners

`AbletonOSC/abletonosc/handler.py`, with the listeners of `track.py` for the
mixer and of `device.py` for a parameter.  A handler keeps one callback for
each key, and Live keeps the callbacks that it calls.  The index in a key is
resolved anew by every request, so that the two may come to disagree.

A key stands for a property with its parameters, and a target for the object
of Live that has the property.
-/

namespace AbletonTracks

open Library

/-- A `property_changed_callback`; the number tells it from every other. -/
structure Listener (κ τ : Type) where
  number : Nat
  key : κ
  target : τ
  deriving DecidableEq

/-- What a request for a listener may raise. -/
inductive ListenError
  /-- An `AttributeError`: the property has no listeners. -/
  | noListeners
  /-- Live removes a callback only where it is connected. -/
  | notConnected
  /-- A `KeyError`: no object was stored for the key. -/
  | noObject
  deriving DecidableEq

/-- What there is to listen to. -/
structure Listenable (κ τ : Type) where
  /-- A key for the mixer or for a device parameter: its object is not
  stored. -/
  mixer : κ → Bool
  /-- The target has listeners for the property. -/
  observable : τ → κ → Bool

/-- A handler, and the callbacks that Live calls. -/
structure Listeners (κ τ : Type) where
  listenerFunctions : Dict κ (Listener κ τ) := ∅
  listenerObjects : Dict κ τ := ∅
  connected : List (Listener κ τ) := []
  made : Nat := 0
  deriving DecidableEq

/-- What happens to listeners. -/
inductive ListenEvent (κ τ : Type)
  /-- A request, with the target to which its index leads now. -/
  | start (target : τ) (key : κ)
  | stop (target : τ) (key : κ)
  /-- `clear_api`. -/
  | clear
  /-- Live deletes an object. -/
  | gone (target : τ)
  deriving DecidableEq

namespace Listeners

variable {κ τ : Type} [DecidableEq κ] [DecidableEq τ]
  (available : Listenable κ τ) (h : Listeners κ τ)

/-! ## Requests -/

/-- A key is deleted, and Live removes its callback from a target, if it is
connected there. -/
def forget (listener : Listener κ τ) (target : τ) (key : κ) :
    Listeners κ τ :=
  { h with
    connected :=
      if listener.target = target then h.connected.erase listener
      else h.connected
    listenerFunctions := h.listenerFunctions.erase key }

/-- `_stop_listen`.  What Live raises is swallowed. -/
def stopListen (target : τ) (key : κ) : Listeners κ τ × Option ListenError :=
  match h.listenerFunctions.get? key with
  | none => (h, none)
  | some listener =>
      if available.observable target key then
        let stopped := h.forget listener target key
        if key ∈ h.listenerObjects then
          ({ stopped with listenerObjects := h.listenerObjects.erase key },
            none)
        else (stopped, some .noObject)
      else (h, some .noListeners)

/-- A new callback is connected to a target and stored under its key. -/
def connect (target : τ) (key : κ) : Listeners κ τ :=
  { h with
    connected := h.connected ++ [⟨h.made, key, target⟩]
    listenerFunctions := h.listenerFunctions.insert key ⟨h.made, key, target⟩
    made := h.made + 1 }

/-- `_start_listen`. -/
def startListen (target : τ) (key : κ) : Listeners κ τ × Option ListenError :=
  match h.stopListen available target key with
  | (stopped, some raised) => (stopped, some raised)
  | (stopped, none) =>
      if available.observable target key then
        ({ stopped.connect target key with
            listenerObjects := stopped.listenerObjects.insert key target },
          none)
      else (stopped, some .noListeners)

/-- `_stop_mixer_listen`, and its like in `device.py`. -/
def stopMixerListen (target : τ) (key : κ) :
    Listeners κ τ × Option ListenError :=
  match h.listenerFunctions.get? key with
  | none => (h, none)
  | some listener =>
      if listener.target = target ∧ listener ∈ h.connected then
        (h.forget listener target key, none)
      else (h, some .notConnected)

/-- `_start_mixer_listen`, and its like in `device.py`. -/
def startMixerListen (target : τ) (key : κ) :
    Listeners κ τ × Option ListenError :=
  match h.stopMixerListen target key with
  | (stopped, some raised) => (stopped, some raised)
  | (stopped, none) => (stopped.connect target key, none)

/-- The loop of `_clear_listeners`. -/
def clearKeys : List κ → Listeners κ τ → Listeners κ τ × Option ListenError
  | [], h => (h, none)
  | key :: keys, h =>
      match h.listenerObjects.get? key with
      | none => (h, some .noObject)
      | some target =>
          match h.stopListen available target key with
          | (stopped, some raised) => (stopped, some raised)
          | (stopped, none) => clearKeys keys stopped

/-- `_clear_listeners`. -/
def clearListeners : Listeners κ τ × Option ListenError :=
  clearKeys available h.listenerFunctions.keys h

/-- What an event leaves behind, and what it raises. -/
def handle : ListenEvent κ τ → Listeners κ τ × Option ListenError
  | .start target key =>
      if available.mixer key then h.startMixerListen target key
      else h.startListen available target key
  | .stop target key =>
      if available.mixer key then h.stopMixerListen target key
      else h.stopListen available target key
  | .clear => h.clearListeners available
  | .gone target =>
      ({ h with
          connected := h.connected.filter fun listener =>
            listener.target ≠ target }, none)

/-- The machine: what is raised ends the request only. -/
def exec (h : Listeners κ τ) (event : ListenEvent κ τ) :
    Option (Listeners κ τ) :=
  some (h.handle available event).1

/-! ## What always holds -/

/-- How the tables of a handler and Live fit together. -/
structure Consistent : Prop where
  keyed : ∀ {key listener}, h.listenerFunctions.get? key = some listener →
    listener.key = key
  stored : ∀ {key}, available.mixer key = false →
    h.listenerObjects.get? key =
      (h.listenerFunctions.get? key).map Listener.target
  unstored : ∀ {key}, available.mixer key = true →
    h.listenerObjects.get? key = none
  observed : ∀ {key listener}, available.mixer key = false →
    h.listenerFunctions.get? key = some listener →
    available.observable listener.target key = true
  numbered : ∀ {key listener}, h.listenerFunctions.get? key = some listener →
    listener.number < h.made
  fresh : ∀ listener ∈ h.connected, listener.number < h.made
  nodup : h.connected.Nodup
  mixers : ∀ listener ∈ h.connected, available.mixer listener.key = true →
    h.listenerFunctions.get? listener.key = some listener

/-- A callback that Live calls, while the handler has none or another one for
its key. -/
def Stray (listener : Listener κ τ) : Prop :=
  listener ∈ h.connected ∧
    h.listenerFunctions.get? listener.key ≠ some listener

instance (listener : Listener κ τ) : Decidable (h.Stray listener) :=
  inferInstanceAs (Decidable (_ ∧ _))

variable {available h} {target : τ} {key : κ} {listener other : Listener κ τ}

theorem mem_connected_forget (key : κ) (nodup : h.connected.Nodup) :
    other ∈ (h.forget listener target key).connected ↔
      other ∈ h.connected ∧ ¬(other = listener ∧ listener.target = target) := by
  unfold forget
  dsimp only
  split
  · rename_i own
    rw [nodup.mem_erase_iff, and_comm]
    simp [own]
  · rename_i different
    simp [different]

theorem get?_forget (wanted : κ) :
    (h.forget listener target key).listenerFunctions.get? wanted =
      if wanted = key then none else h.listenerFunctions.get? wanted :=
  Dict.get?_erase _ _ _

/-- A stray stays, and a callback that is removed from another target than its
own becomes one. -/
theorem stray_forget
    (consistent : h.Consistent available)
    (found : h.listenerFunctions.get? key = some listener) :
    (h.forget listener target key).Stray other ↔
      h.Stray other ∨
        other = listener ∧ listener ∈ h.connected ∧
          listener.target ≠ target := by
  unfold Stray
  rw [mem_connected_forget key consistent.nodup, get?_forget]
  have keyed := consistent.keyed found
  by_cases own : other = listener
  · subst own
    rw [keyed, if_pos rfl, found]
    simp
  · by_cases same : other.key = key
    · rw [if_pos same, same, found]
      simp [own, Ne.symm own]
    · rw [if_neg same]
      simp [own]

theorem stray_connect
    (consistent : h.Consistent available)
    (absent : h.listenerFunctions.get? key = none) :
    (h.connect target key).Stray other ↔ h.Stray other := by
  unfold Stray connect
  rw [List.mem_append, List.mem_singleton, Dict.get?_insert]
  by_cases new : other = ⟨h.made, key, target⟩
  · subst new
    have unknown : (⟨h.made, key, target⟩ : Listener κ τ) ∉ h.connected :=
      fun member => Nat.lt_irrefl _ (consistent.fresh _ member)
    simp [unknown]
  · by_cases same : other.key = key
    · rw [if_pos same, same, absent]
      simp [new, Ne.symm new]
    · rw [if_neg same]
      simp [new]

/-! ## It holds after every request -/

/-- What is left of the tables once a key is deleted. -/
theorem consistent_forget
    (consistent : h.Consistent available)
    (found : h.listenerFunctions.get? key = some listener)
    (objects : Dict κ τ)
    (erased : ∀ wanted, objects.get? wanted =
      if wanted = key then none else h.listenerObjects.get? wanted)
    (own : available.mixer key = true → listener.target = target) :
    Consistent available
      { h.forget listener target key with listenerObjects := objects } where
  keyed wanted := by
    rw [get?_forget, Option.ite_none_left_eq_some] at wanted
    exact consistent.keyed wanted.2
  stored {wanted} plain := by
    rw [erased, get?_forget]
    split
    · rfl
    · exact consistent.stored plain
  unstored {wanted} mixer := by
    rw [erased]
    split
    · rfl
    · exact consistent.unstored mixer
  observed plain wanted := by
    rw [get?_forget, Option.ite_none_left_eq_some] at wanted
    exact consistent.observed plain wanted.2
  numbered wanted := by
    rw [get?_forget, Option.ite_none_left_eq_some] at wanted
    exact consistent.numbered wanted.2
  fresh other member :=
    consistent.fresh other
      ((mem_connected_forget key consistent.nodup).mp member).1
  nodup := by
    unfold forget
    dsimp only
    split
    · exact consistent.nodup.erase listener
    · exact consistent.nodup
  mixers other member mixer := by
    obtain ⟨connected, kept⟩ :=
      (mem_connected_forget key consistent.nodup).mp member
    have stored := consistent.mixers other connected mixer
    rw [get?_forget, if_neg ?_]
    · exact stored
    · rintro rfl
      obtain rfl := Option.some.inj (stored.symm.trans found)
      exact kept ⟨rfl, own mixer⟩

omit [DecidableEq τ] in
/-- What is left of the tables once a callback is connected. -/
theorem consistent_connect
    (consistent : h.Consistent available)
    (absent : h.listenerFunctions.get? key = none)
    (objects : Dict κ τ)
    (inserted : ∀ wanted, objects.get? wanted =
      if wanted = key ∧ available.mixer key = false then some target
      else h.listenerObjects.get? wanted)
    (observable : available.mixer key = false →
      available.observable target key = true) :
    Consistent available
      { h.connect target key with listenerObjects := objects } where
  keyed {wanted _} stored := by
    unfold connect at stored
    rw [Dict.get?_insert] at stored
    split at stored
    · rename_i same
      obtain rfl := Option.some.inj stored
      exact same.symm
    · exact consistent.keyed stored
  stored {wanted} plain := by
    unfold connect
    rw [inserted, Dict.get?_insert]
    by_cases same : wanted = key
    · subst same
      rw [if_pos ⟨rfl, plain⟩, if_pos rfl]
      rfl
    · rw [if_neg fun both => same both.1, if_neg same]
      exact consistent.stored plain
  unstored {wanted} mixer := by
    rw [inserted, if_neg ?_]
    · exact consistent.unstored mixer
    · rintro ⟨rfl, plain⟩
      rw [mixer] at plain
      cases plain
  observed {wanted _} plain stored := by
    unfold connect at stored
    rw [Dict.get?_insert] at stored
    split at stored
    · rename_i same
      subst same
      obtain rfl := Option.some.inj stored
      exact observable plain
    · exact consistent.observed plain stored
  numbered {wanted _} stored := by
    unfold connect at stored ⊢
    rw [Dict.get?_insert] at stored
    split at stored
    · obtain rfl := Option.some.inj stored
      exact Nat.lt_succ_self _
    · exact Nat.lt_succ_of_lt (consistent.numbered stored)
  fresh other member := by
    obtain earlier | new := List.mem_append.mp member
    · exact Nat.lt_succ_of_lt (consistent.fresh other earlier)
    · obtain rfl := List.mem_singleton.mp new
      exact Nat.lt_succ_self _
  nodup := by
    refine List.nodup_append.mpr
      ⟨consistent.nodup, List.nodup_singleton _, ?_⟩
    rintro other member _ new rfl
    obtain rfl := List.mem_singleton.mp new
    exact Nat.lt_irrefl _ (consistent.fresh _ member)
  mixers other member mixer := by
    unfold connect
    rw [Dict.get?_insert]
    obtain earlier | new := List.mem_append.mp member
    · have stored := consistent.mixers other earlier mixer
      rw [if_neg ?_]
      · exact stored
      · intro same
        rw [same, absent] at stored
        cases stored
    · obtain rfl := List.mem_singleton.mp new
      exact if_pos rfl

/-- The object of a property is stored with its callback, so that the
deletion of a key does not raise. -/
theorem stopListen_of_stored
    (consistent : h.Consistent available)
    (plain : available.mixer key = false)
    (found : h.listenerFunctions.get? key = some listener)
    (observable : available.observable target key = true) :
    h.stopListen available target key =
      ({ h.forget listener target key with
        listenerObjects := h.listenerObjects.erase key }, none) := by
  have stored := consistent.stored plain
  rw [found, Option.map_some] at stored
  have present : key ∈ h.listenerObjects :=
    Dict.mem_iff_exists_get?.mpr ⟨_, stored⟩
  unfold stopListen
  rw [found]
  dsimp only
  rw [if_pos observable, if_pos present]

/-- A request displaces the callback of its key where this is connected to
another target than the one to which the index leads now. -/
def Displaces
    (available : Listenable κ τ)
    (h : Listeners κ τ)
    (event : ListenEvent κ τ)
    (listener : Listener κ τ) : Prop :=
  match event with
  | .start target key | .stop target key =>
      available.mixer key = false ∧ available.observable target key = true ∧
        h.listenerFunctions.get? key = some listener ∧
        listener ∈ h.connected ∧ listener.target ≠ target
  | .clear | .gone _ => False

theorem stopListen_spec
    (target : τ)
    (consistent : h.Consistent available)
    (plain : available.mixer key = false) :
    (h.stopListen available target key).1.Consistent available ∧
      ((h.stopListen available target key).2 = none →
        (h.stopListen available target key).1.listenerFunctions.get? key =
          none) ∧
      ∀ other, (h.stopListen available target key).1.Stray other ↔
        h.Stray other ∨ Displaces available h (.stop target key) other := by
  cases found : h.listenerFunctions.get? key with
  | none =>
      have same : h.stopListen available target key = (h, none) := by
        rw [stopListen, found]
      rw [same]
      exact ⟨consistent, fun _ => found, by simp [Displaces, found]⟩
  | some listener =>
      cases observable : available.observable target key with
      | false =>
          have same : h.stopListen available target key =
              (h, some .noListeners) := by
            rw [stopListen, found]
            simp [observable]
          rw [same]
          refine ⟨consistent, fun raised => ?_, fun other => ?_⟩
          · cases raised
          · simp [Displaces, observable]
      | true =>
          rw [stopListen_of_stored consistent plain found observable]
          refine ⟨?_, fun _ => ?_, fun other => ?_⟩
          · refine consistent_forget consistent found _
              (Dict.get?_erase _ key) fun mixer => ?_
            rw [plain] at mixer
            cases mixer
          · exact Dict.get?_erase_self _ key
          · refine (stray_forget consistent found).trans ?_
            refine or_congr_right ⟨?_, ?_⟩
            · rintro ⟨rfl, connected, different⟩
              exact ⟨plain, observable, found, connected, different⟩
            · rintro ⟨_, _, own, connected, different⟩
              obtain rfl := Option.some.inj (found.symm.trans own)
              exact ⟨rfl, connected, different⟩

theorem startListen_spec
    (target : τ)
    (consistent : h.Consistent available)
    (plain : available.mixer key = false) :
    (h.startListen available target key).1.Consistent available ∧
      ∀ other, (h.startListen available target key).1.Stray other ↔
        h.Stray other ∨ Displaces available h (.start target key) other := by
  have spec := stopListen_spec target consistent plain
  rw [startListen]
  generalize h.stopListen available target key = result at spec
  obtain ⟨stopped, raised⟩ := result
  obtain ⟨again, absent, strays⟩ := spec
  cases raised with
  | some raised => exact ⟨again, strays⟩
  | none =>
      dsimp only
      split
      · rename_i observable
        have missing := absent rfl
        refine ⟨?_, fun other => ?_⟩
        · refine consistent_connect again missing _ (fun wanted => ?_)
            fun _ => observable
          rw [Dict.get?_insert]
          simp only [plain, and_true]
        · exact (stray_connect again missing).trans (strays other)
      · exact ⟨again, strays⟩

/-- A request for a property leaves its callback stored, and connected to the
target to which the index leads. -/
theorem startListen_own
    (consistent : h.Consistent available)
    (plain : available.mixer key = false)
    (observable : available.observable target key = true) :
    ∃ listener,
      (h.startListen available target key).1.listenerFunctions.get? key =
        some listener ∧
      listener ∈ (h.startListen available target key).1.connected ∧
      listener.target = target := by
  have quiet : (h.stopListen available target key).2 = none := by
    cases found : h.listenerFunctions.get? key with
    | none => rw [stopListen, found]
    | some _ => rw [stopListen_of_stored consistent plain found observable]
  rw [startListen]
  generalize h.stopListen available target key = result at quiet
  obtain ⟨stopped, raised⟩ := result
  obtain rfl := quiet
  dsimp only
  rw [if_pos observable]
  exact ⟨⟨stopped.made, key, target⟩, Dict.get?_insert_self _ _ _,
    List.mem_append_right _ List.mem_cons_self, rfl⟩

/-- It leaves the callbacks of other keys alone. -/
theorem startListen_other
    (target : τ)
    (consistent : h.Consistent available)
    (plain : available.mixer key = false)
    {wanted : κ}
    (different : wanted ≠ key)
    (found : h.listenerFunctions.get? wanted = some other)
    (member : other ∈ h.connected) :
    (h.startListen available target key).1.listenerFunctions.get? wanted =
        some other ∧
      other ∈ (h.startListen available target key).1.connected := by
  have kept : (h.stopListen available target key).1.listenerFunctions.get?
        wanted = some other ∧
      other ∈ (h.stopListen available target key).1.connected := by
    cases stored : h.listenerFunctions.get? key with
    | none =>
        rw [stopListen, stored]
        exact ⟨found, member⟩
    | some listener =>
        cases observable : available.observable target key with
        | false =>
            rw [stopListen, stored]
            simpa [observable] using ⟨found, member⟩
        | true =>
            rw [stopListen_of_stored consistent plain stored observable]
            have stays :
                (h.forget listener target key).listenerFunctions.get? wanted =
                  some other := by
              rw [get?_forget, if_neg different, found]
            refine ⟨stays, (mem_connected_forget key consistent.nodup).mpr
              ⟨member, fun same => different ?_⟩⟩
            rw [← consistent.keyed found, same.1, consistent.keyed stored]
  rw [startListen]
  generalize h.stopListen available target key = result at kept
  obtain ⟨stopped, raised⟩ := result
  cases raised with
  | some raised => exact kept
  | none =>
      dsimp only
      split
      · refine ⟨?_, List.mem_append_left _ kept.2⟩
        unfold connect
        rw [Dict.get?_insert_of_ne _ different, kept.1]
      · exact kept

theorem stopMixerListen_spec
    (target : τ)
    (consistent : h.Consistent available)
    (mixer : available.mixer key = true) :
    (h.stopMixerListen target key).1.Consistent available ∧
      ((h.stopMixerListen target key).2 = none →
        (h.stopMixerListen target key).1.listenerFunctions.get? key = none) ∧
      ∀ other, (h.stopMixerListen target key).1.Stray other ↔
        h.Stray other := by
  rw [stopMixerListen]
  split
  · rename_i absent
    exact ⟨consistent, fun _ => absent, fun _ => Iff.rfl⟩
  · rename_i listener found
    split
    · rename_i own
      refine ⟨?_, fun _ => ?_, fun other => ?_⟩
      · refine consistent_forget consistent found h.listenerObjects
          (fun wanted => ?_) fun _ => own.1
        split
        · rename_i same
          rw [same]
          exact consistent.unstored mixer
        · rfl
      · exact (get?_forget key).trans (if_pos rfl)
      · refine (stray_forget consistent found).trans ?_
        simp [own.1]
    · refine ⟨consistent, fun raised => ?_, fun _ => Iff.rfl⟩
      cases raised

theorem startMixerListen_spec
    (target : τ)
    (consistent : h.Consistent available)
    (mixer : available.mixer key = true) :
    (h.startMixerListen target key).1.Consistent available ∧
      ∀ other, (h.startMixerListen target key).1.Stray other ↔
        h.Stray other := by
  have spec := stopMixerListen_spec target consistent mixer
  rw [startMixerListen]
  generalize h.stopMixerListen target key = result at spec
  obtain ⟨stopped, raised⟩ := result
  obtain ⟨again, absent, strays⟩ := spec
  cases raised with
  | some raised => exact ⟨again, strays⟩
  | none =>
      have missing := absent rfl
      refine ⟨?_, fun other => ?_⟩
      · refine consistent_connect again missing stopped.listenerObjects
          (fun wanted => ?_) fun plain => ?_
        · simp [mixer]
        · rw [mixer] at plain
          cases plain
      · exact (stray_connect again missing).trans (strays other)

/-- The keys are deleted at their own targets, so that no callback is
displaced. -/
theorem clearKeys_spec
    (consistent : h.Consistent available)
    (keys : List κ) :
    (clearKeys available keys h).1.Consistent available ∧
      ∀ other, (clearKeys available keys h).1.Stray other ↔
        h.Stray other := by
  induction keys generalizing h with
  | nil => exact ⟨consistent, fun _ => Iff.rfl⟩
  | cons key keys inductionHypothesis =>
      rw [clearKeys]
      split
      · exact ⟨consistent, fun _ => Iff.rfl⟩
      · rename_i target stored
        have plain : available.mixer key = false := by
          cases mixer : available.mixer key with
          | false => rfl
          | true =>
              rw [consistent.unstored mixer] at stored
              cases stored
        have spec := stopListen_spec target consistent plain
        have displaced : ∀ other,
            ¬Displaces available h (.stop target key) other := by
          rintro other ⟨_, _, found, _, different⟩
          have own := consistent.stored plain
          rw [found, stored] at own
          exact different (Option.some.inj own).symm
        generalize h.stopListen available target key = result at spec
        obtain ⟨stopped, raised⟩ := result
        obtain ⟨again, _, strays⟩ := spec
        have same : ∀ other, stopped.Stray other ↔ h.Stray other :=
          fun other => (strays other).trans
            (or_iff_left (displaced other))
        cases raised with
        | some raised => exact ⟨again, same⟩
        | none =>
            obtain ⟨last, later⟩ := inductionHypothesis again
            exact ⟨last, fun other => (later other).trans (same other)⟩

/-- Live deletes the object of a callback. -/
def Loses (event : ListenEvent κ τ) (listener : Listener κ τ) : Prop :=
  match event with
  | .gone target => listener.target = target
  | _ => False

/-- What one event does. -/
theorem handle_spec
    (consistent : h.Consistent available)
    (event : ListenEvent κ τ) :
    (h.handle available event).1.Consistent available ∧
      ∀ other, (h.handle available event).1.Stray other ↔
        h.Stray other ∧ ¬Loses event other ∨
          Displaces available h event other := by
  have kept : ∀ (event : ListenEvent κ τ) {other : Listener κ τ},
      ¬Loses event other →
        (h.Stray other ∧ ¬Loses event other ↔ h.Stray other) :=
    fun _ _ stays => and_iff_left stays
  cases event with
  | start target key =>
      simp only [handle, kept (.start target key) id]
      cases kind : available.mixer key with
      | false => exact startListen_spec target consistent kind
      | true =>
          obtain ⟨again, strays⟩ := startMixerListen_spec target consistent kind
          refine ⟨again, fun other => (strays other).trans ?_⟩
          simp [Displaces, kind]
  | stop target key =>
      simp only [handle, kept (.stop target key) id]
      cases kind : available.mixer key with
      | false =>
          obtain ⟨again, _, strays⟩ := stopListen_spec target consistent kind
          exact ⟨again, strays⟩
      | true =>
          obtain ⟨again, _, strays⟩ :=
            stopMixerListen_spec target consistent kind
          refine ⟨again, fun other => (strays other).trans ?_⟩
          simp [Displaces, kind]
  | clear =>
      obtain ⟨again, strays⟩ :=
        clearKeys_spec consistent h.listenerFunctions.keys
      refine ⟨again, fun other => (strays other).trans ?_⟩
      simp [Displaces, Loses]
  | gone target =>
      refine ⟨{ consistent with
        fresh := ?_, nodup := ?_, mixers := ?_ }, fun other => ?_⟩
      · exact fun other member =>
          consistent.fresh other (List.mem_filter.mp member).1
      · exact consistent.nodup.filter _
      · exact fun other member =>
          consistent.mixers other (List.mem_filter.mp member).1
      · unfold Stray handle
        dsimp only
        rw [List.mem_filter]
        simp [Displaces, Loses, and_right_comm]

/-! ## Whole runs -/

omit [DecidableEq τ] in
theorem consistent_empty : Consistent available ({} : Listeners κ τ) where
  keyed stored := by simp at stored
  stored _ := by simp
  unstored _ := by simp
  observed _ stored := by simp at stored
  numbered stored := by simp at stored
  fresh _ member := (List.not_mem_nil member).elim
  nodup := List.nodup_nil
  mixers _ member := (List.not_mem_nil member).elim

theorem consistent_of_run
    {steps : List (Step (Listeners κ τ) (ListenEvent κ τ))}
    (run : Run (exec available) {} steps h) :
    h.Consistent available := by
  refine run.invariant (Consistent available) consistent_empty ?_
  intro current event after consistent taken
  obtain rfl := Option.some.inj taken
  exact (handle_spec consistent event).1

/-- After every run the strays are exactly the callbacks that some request
displaced and whose objects Live has not deleted since: no later request, and
no reload, takes a stray away. -/
theorem stray_iff_since_displaces
    {steps : List (Step (Listeners κ τ) (ListenEvent κ τ))}
    (run : Run (exec available) {} steps h)
    (listener : Listener κ τ) :
    h.Stray listener ↔
      Since (fun step => Displaces available step.before step.label listener)
        (fun step => ¬Loses step.label listener) steps := by
  induction run with
  | nil =>
      exact ⟨fun stray => (List.not_mem_nil stray.1).elim,
        fun since => (not_since_nil since).elim⟩
  | snoc earlier taken inductionHypothesis =>
      obtain rfl := Option.some.inj taken
      rw [since_snoc, ← inductionHypothesis]
      exact (handle_spec (consistent_of_run earlier) _).2 listener

/-- Every key is one of a property that can be listened to. -/
def propertyOnly : Listenable Nat Nat := ⟨fun _ => false, fun _ _ => true⟩

/-- A track was inserted in front of the one that is listened to, and its
index is listened to again. -/
theorem stray_iff_since_displaces_inserted :
    let once := (({} : Listeners Nat Nat).handle propertyOnly (.start 7 0)).1
    let twice := (once.handle propertyOnly (.start 8 0)).1
    let steps : List (Step (Listeners Nat Nat) (ListenEvent Nat Nat)) :=
      [⟨{}, .start 7 0, once⟩, ⟨once, .start 8 0, twice⟩]
    let first : Listener Nat Nat := ⟨0, 0, 7⟩
    Since (fun step => Displaces propertyOnly step.before step.label first)
      (fun step => ¬Loses step.label first) steps := by
  intro once twice steps first
  have run : Run (exec propertyOnly) {} steps twice :=
    (Run.single rfl).snoc rfl
  exact (stray_iff_since_displaces run first).mp ⟨by decide, by decide⟩

/-! ## Listeners of the mixer -/

/-- A callback of the mixer that is stored, but no longer connected. -/
def Stuck
    (h : Listeners κ τ)
    (key : κ)
    (listener : Listener κ τ) : Prop :=
  h.listenerFunctions.get? key = some listener ∧ listener ∉ h.connected

omit [DecidableEq τ] in
theorem Stuck.connect
    (consistent : h.Consistent available)
    (stuck : h.Stuck key listener)
    {changed : κ}
    (absent : h.listenerFunctions.get? changed = none) :
    (h.connect target changed).Stuck key listener := by
  obtain ⟨found, gone⟩ := stuck
  constructor
  · unfold Listeners.connect
    rw [Dict.get?_insert_of_ne]
    · exact found
    · rintro rfl
      rw [absent] at found
      cases found
  · rintro member
    obtain earlier | new := List.mem_append.mp member
    · exact gone earlier
    · obtain rfl := List.mem_singleton.mp new
      exact Nat.lt_irrefl _ (consistent.numbered found)

theorem Stuck.forget
    (consistent : h.Consistent available)
    (stuck : h.Stuck key listener)
    {changed : κ}
    (different : key ≠ changed) :
    (h.forget other target changed).Stuck key listener := by
  obtain ⟨found, gone⟩ := stuck
  refine ⟨?_, fun member => ?_⟩
  · rw [get?_forget, if_neg different]
    exact found
  · exact gone ((mem_connected_forget changed consistent.nodup).mp member).1

theorem Stuck.stop
    (target : τ)
    (consistent : h.Consistent available)
    (stuck : h.Stuck key listener)
    {changed : κ}
    (plain : available.mixer changed = false)
    (different : key ≠ changed) :
    (h.stopListen available target changed).1.Stuck key listener := by
  cases found : h.listenerFunctions.get? changed with
  | none =>
      rw [stopListen, found]
      exact stuck
  | some callback =>
      cases observable : available.observable target changed with
      | false =>
          rw [stopListen, found]
          simpa [observable] using stuck
      | true =>
          rw [stopListen_of_stored consistent plain found observable]
          exact stuck.forget consistent different

theorem Stuck.start
    (consistent : h.Consistent available)
    (stuck : h.Stuck key listener)
    {changed : κ}
    (plain : available.mixer changed = false)
    (different : key ≠ changed) :
    (h.startListen available target changed).1.Stuck key listener := by
  have spec := stopListen_spec target consistent plain
  have kept := stuck.stop target consistent plain different
  rw [startListen]
  generalize h.stopListen available target changed = result at spec kept
  obtain ⟨stopped, raised⟩ := result
  cases raised with
  | some raised => exact kept
  | none =>
      dsimp only
      split
      · exact kept.connect spec.1 (spec.2.1 rfl)
      · exact kept

/-- A request for the key raises and changes nothing. -/
theorem Stuck.stopMixer_own
    (stuck : h.Stuck key listener)
    (target : τ) :
    h.stopMixerListen target key = (h, some .notConnected) := by
  rw [stopMixerListen, stuck.1]
  exact if_neg fun both => stuck.2 both.2

theorem Stuck.stopMixer
    (target : τ)
    (consistent : h.Consistent available)
    (stuck : h.Stuck key listener)
    (changed : κ) :
    (h.stopMixerListen target changed).1.Stuck key listener := by
  by_cases own : key = changed
  · subst own
    rw [stuck.stopMixer_own target]
    exact stuck
  · rw [stopMixerListen]
    split
    · exact stuck
    · split
      · exact stuck.forget consistent own
      · exact stuck

theorem Stuck.startMixer
    (consistent : h.Consistent available)
    (stuck : h.Stuck key listener)
    {changed : κ}
    (mixer : available.mixer changed = true) :
    (h.startMixerListen target changed).1.Stuck key listener := by
  have spec := stopMixerListen_spec target consistent mixer
  have kept := stuck.stopMixer target consistent changed
  rw [startMixerListen]
  generalize h.stopMixerListen target changed = result at spec kept
  obtain ⟨stopped, raised⟩ := result
  cases raised with
  | some raised => exact kept
  | none => exact kept.connect spec.1 (spec.2.1 rfl)

theorem Stuck.clear
    (consistent : h.Consistent available)
    (mixer : available.mixer key = true)
    (stuck : h.Stuck key listener)
    (keys : List κ) :
    (clearKeys available keys h).1.Stuck key listener := by
  induction keys generalizing h with
  | nil => exact stuck
  | cons changed keys inductionHypothesis =>
      rw [clearKeys]
      split
      · exact stuck
      · rename_i target stored
        have plain : available.mixer changed = false := by
          by_contra kind
          rw [consistent.unstored (by simpa using kind)] at stored
          cases stored
        have different : key ≠ changed := by
          rintro rfl
          rw [mixer] at plain
          cases plain
        have again := (stopListen_spec target consistent plain).1
        have kept := stuck.stop target consistent plain different
        generalize h.stopListen available target changed = result at again kept
        obtain ⟨stopped, raised⟩ := result
        cases raised with
        | some raised => exact kept
        | none => exact inductionHypothesis again kept

theorem Stuck.handle
    (consistent : h.Consistent available)
    (mixer : available.mixer key = true)
    (stuck : h.Stuck key listener)
    (event : ListenEvent κ τ) :
    (h.handle available event).1.Stuck key listener := by
  have plainNe {changed : κ} (plain : available.mixer changed = false) :
      key ≠ changed := by
    rintro rfl
    rw [mixer] at plain
    cases plain
  cases event with
  | start target changed =>
      simp only [Listeners.handle]
      cases kind : available.mixer changed with
      | false =>
          exact stuck.start consistent kind (plainNe kind)
      | true => exact stuck.startMixer consistent kind
  | stop target changed =>
      simp only [Listeners.handle]
      cases kind : available.mixer changed with
      | false => exact stuck.stop target consistent kind (plainNe kind)
      | true => exact stuck.stopMixer target consistent changed
  | clear => exact stuck.clear consistent mixer _
  | gone target =>
      exact ⟨stuck.1, fun member => stuck.2 (List.mem_filter.mp member).1⟩

/-- Once Live has deleted the object of a stored callback of the mixer, the
key can never be listened to again, whatever its index leads to by then. -/
theorem handle_of_gone
    {early late : List (Step (Listeners κ τ) (ListenEvent κ τ))}
    {step : Step (Listeners κ τ) (ListenEvent κ τ)}
    (run : Run (exec available) {} (early ++ step :: late) h)
    (mixer : available.mixer key = true)
    (stored : step.before.listenerFunctions.get? key = some listener)
    (deleted : step.label = .gone listener.target)
    (target : τ) :
    h.handle available (.start target key) = (h, some .notConnected) ∧
      h.handle available (.stop target key) = (h, some .notConnected) := by
  obtain ⟨before, label, after⟩ := step
  obtain ⟨past, taken, future⟩ := run.split
  dsimp only at past taken future stored deleted
  subst deleted
  obtain rfl := Option.some.inj taken
  have consistent := consistent_of_run past
  have again := (handle_spec consistent (.gone listener.target)).1
  have stuck : (before.handle available (.gone listener.target)).1.Stuck key
      listener := by
    refine ⟨stored, fun member => ?_⟩
    have kept := (List.mem_filter.mp member).2
    simp at kept
  have last : h.Stuck key listener := by
    refine (future.invariant
      (fun h => h.Consistent available ∧ h.Stuck key listener)
      ⟨again, stuck⟩ ?_).2
    rintro current event _ ⟨consistent, stuck⟩ taken
    obtain rfl := Option.some.inj taken
    exact ⟨(handle_spec consistent event).1,
      stuck.handle consistent mixer event⟩
  constructor
  · rw [handle, if_pos mixer, startMixerListen, last.stopMixer_own target]
  · rw [handle, if_pos mixer, last.stopMixer_own target]

/-- Every key is one of the mixer. -/
def mixerOnly : Listenable Nat Nat := ⟨fun _ => true, fun _ _ => true⟩

theorem handle_of_gone_volume :
    let listening := (({} : Listeners Nat Nat).handle mixerOnly (.start 7 0)).1
    let gone := (listening.handle mixerOnly (.gone 7)).1
    gone.handle mixerOnly (.start 8 0) = (gone, some .notConnected) ∧
      gone.handle mixerOnly (.stop 8 0) = (gone, some .notConnected) := by
  intro listening gone
  have run : Run (exec mixerOnly) {}
      ([⟨{}, .start 7 0, listening⟩] ++ ⟨listening, .gone 7, gone⟩ :: [])
      gone := (Run.single rfl).snoc rfl
  have stored : listening.listenerFunctions.get? 0 = some ⟨0, 0, 7⟩ := by
    decide
  exact handle_of_gone run rfl stored rfl 8

/-! ## Clearing all -/

/-- A stored property is stopped at its own object. -/
theorem stopListen_own
    (consistent : h.Consistent available)
    (plain : available.mixer key = false)
    (found : h.listenerFunctions.get? key = some listener) :
    h.listenerObjects.get? key = some listener.target ∧
      (h.stopListen available listener.target key).2 = none ∧
      ∀ wanted,
        (h.stopListen available listener.target key).1.listenerFunctions.get?
          wanted =
            if wanted = key then none else h.listenerFunctions.get? wanted := by
  have observable := consistent.observed plain found
  rw [stopListen_of_stored consistent plain found observable]
  refine ⟨?_, rfl, Dict.get?_erase _ key⟩
  rw [consistent.stored plain, found, Option.map_some]

theorem clearKeys_of_plain
    {keys : List κ}
    (consistent : h.Consistent available)
    (plain : ∀ key ∈ keys, available.mixer key = false)
    (stored : ∀ key ∈ keys, key ∈ h.listenerFunctions)
    (distinct : keys.Nodup) :
    (clearKeys available keys h).2 = none ∧
      ∀ wanted, (clearKeys available keys h).1.listenerFunctions.get? wanted =
        if wanted ∈ keys then none
        else h.listenerFunctions.get? wanted := by
  induction keys generalizing h with
  | nil => exact ⟨rfl, fun _ => rfl⟩
  | cons key keys inductionHypothesis =>
      rw [List.forall_mem_cons] at plain stored
      rw [List.nodup_cons] at distinct
      obtain ⟨listener, found⟩ := Dict.mem_iff_exists_get?.mp stored.1
      obtain ⟨object, raised, left⟩ :=
        stopListen_own consistent plain.1 found
      have again :=
        (stopListen_spec listener.target consistent plain.1).1
      rw [clearKeys, object]
      dsimp only
      generalize h.stopListen available listener.target key = result
        at raised left again
      obtain ⟨stopped, _⟩ := result
      obtain rfl := raised
      have others : ∀ other ∈ keys, other ∈ stopped.listenerFunctions := by
        intro other member
        have different : other ≠ key := by
          rintro rfl
          exact distinct.1 member
        rw [Dict.mem_iff_exists_get?, left, if_neg different,
          ← Dict.mem_iff_exists_get?]
        exact stored.2 other member
      obtain ⟨quiet, cleared⟩ :=
        inductionHypothesis again plain.2 others distinct.2
      refine ⟨quiet, fun wanted => (cleared wanted).trans ?_⟩
      rw [left]
      by_cases own : wanted = key <;> simp [own]

theorem clearKeys_of_mixer
    {keys : List κ}
    (consistent : h.Consistent available)
    (mixer : ∃ key ∈ keys, available.mixer key = true) :
    (clearKeys available keys h).2 ≠ none := by
  induction keys generalizing h with
  | nil => simp at mixer
  | cons key keys inductionHypothesis =>
      rw [clearKeys]
      cases stored : h.listenerObjects.get? key with
      | none => exact Option.some_ne_none _
      | some target =>
          have plain : available.mixer key = false := by
            by_contra kind
            rw [consistent.unstored (by simpa using kind)] at stored
            cases stored
          have later : ∃ key ∈ keys, available.mixer key = true := by
            simpa [plain] using mixer
          have again := (stopListen_spec target consistent plain).1
          dsimp only
          generalize h.stopListen available target key = result at again
          obtain ⟨stopped, raised⟩ := result
          cases raised with
          | some raised => exact Option.some_ne_none _
          | none => exact inductionHypothesis again later

theorem clearListeners_quiet_iff (consistent : h.Consistent available) :
    (h.clearListeners available).2 = none ↔
      ∀ key ∈ h.listenerFunctions, available.mixer key = false := by
  constructor
  · intro quiet key stored
    by_contra mixer
    exact clearKeys_of_mixer consistent
      ⟨key, stored, by simpa using mixer⟩ quiet
  · intro plain
    exact (clearKeys_of_plain consistent plain (fun _ => id)
      h.listenerFunctions.nodup_keys).1

/-- `clear_api` goes through exactly when no callback of the mixer is stored;
what Live then still calls are the strays. -/
theorem clearListeners_eq_none_iff (consistent : h.Consistent available) :
    ((h.clearListeners available).2 = none ↔
      ∀ key ∈ h.listenerFunctions, available.mixer key = false) ∧
    ((h.clearListeners available).2 = none →
      (∀ key, (h.clearListeners available).1.listenerFunctions.get? key =
        none) ∧
      ∀ listener, listener ∈ (h.clearListeners available).1.connected ↔
        h.Stray listener) := by
  refine ⟨clearListeners_quiet_iff consistent, fun quiet => ?_⟩
  have cleared : ∀ key,
      (h.clearListeners available).1.listenerFunctions.get? key = none := by
    intro key
    have left := (clearKeys_of_plain consistent
      ((clearListeners_quiet_iff consistent).mp quiet)
      (fun _ => id) h.listenerFunctions.nodup_keys).2 key
    refine left.trans ?_
    split
    · rfl
    · rename_i absent
      exact Dict.get?_eq_none_iff.mpr absent
  refine ⟨cleared, fun listener => ?_⟩
  rw [← (clearKeys_spec consistent h.listenerFunctions.keys).2 listener]
  refine ⟨fun member => ⟨member, ?_⟩, And.left⟩
  have none := cleared listener.key
  unfold clearListeners at none
  rw [none]
  exact (Option.some_ne_none listener).symm

theorem clearListeners_eq_none_iff_inserted :
    let once := (({} : Listeners Nat Nat).handle propertyOnly (.start 7 0)).1
    let twice := (once.handle propertyOnly (.start 8 0)).1
    ∀ listener,
      listener ∈ (twice.clearListeners propertyOnly).1.connected ↔
        twice.Stray listener := by
  intro once twice
  have consistent : twice.Consistent propertyOnly :=
    (handle_spec (handle_spec consistent_empty (.start 7 0)).1 (.start 8 0)).1
  have spec := clearListeners_eq_none_iff consistent
  exact (spec.2 (spec.1.mpr fun _ _ => rfl)).2

end Listeners
end AbletonTracks
