import AbletonTracks.Osc.RoundTrip
import AbletonTracks.Remote.Analysis

/-!
# Arguments that arrive

`Arrives` says which values of a message reach the other side, without the
bytes between them.  Here it is compared with what the builder writes and the
parser reads.
-/

namespace AbletonTracks

open Library

namespace OscValue

/-- The value that is handed to the builder. -/
def value : OscValue → ArgValue
  | .string text => .string text
  | .int value => .int value
  | .float value => .float (.finite value)

theorem isLeaf_value (argument : OscValue) : argument.value.IsLeaf := by
  cases argument <;> trivial

theorem packed_value (argument : OscValue) :
    argument.value.packed = argument.packed.value := by
  cases argument with
  | string text => rfl
  | int value => rfl
  | float value =>
      exact congrArg (fun rounded => ArgValue.float (.finite rounded))
        (FloatFormat.round_single value)

/-- What can be packed is what fits into its type and has no NUL. -/
theorem packs_iff (argument : OscValue) :
    argument.Packs ↔ argument.value.Fits ∧ argument.value.Plain := by
  cases argument with
  | string text => exact ⟨fun plain => ⟨trivial, plain⟩, And.right⟩
  | int value =>
      simp only [Packs, packs, OscValue.value, ArgValue.Fits, ArgValue.IntFits,
        ArgValue.Plain]
      split <;> split <;> first | omega | simp
  | float value =>
      have finite : (FloatFormat.single.pack? (.finite value)).isSome ↔
          |value| < FloatFormat.single.overflow := by
        simp [FloatFormat.pack?]
      have overflow : FloatFormat.single.overflow = 2 ^ 128 - 2 ^ 103 := by
        norm_num [FloatFormat.overflow, FloatFormat.single]
      simp [Packs, packs, OscValue.value, ArgValue.Fits, ArgValue.Plain,
        finite, overflow]

theorem exists_arrives_iff_packs {values : List OscValue} :
    (∃ args, List.Forall₂ Arrives values args) ↔
      ∀ argument ∈ values, argument.Packs := by
  refine ⟨?_, exists_arrives⟩
  rintro ⟨args, arrived⟩
  induction arrived with
  | nil => exact fun _ member => (List.not_mem_nil member).elim
  | cons first _ inductionHypothesis =>
      exact List.forall_mem_cons.mpr ⟨first.1, inductionHypothesis⟩

end OscValue

/-- The values of a message arrive exactly when its datagram is parsed as its
address and these values, packed. -/
theorem exists_arrives_iff (address : String) (values : List OscValue) :
    (address ≠ "" ∧ Char.ofNat 0 ∉ address.toList ∧
      ∃ args, List.Forall₂ OscValue.Arrives values args) ↔
    ∃ m, OscMessageBuilder.message address (values.map OscValue.value) =
        .ok m ∧
      m.address = address ∧
      m.params = values.map fun argument => argument.packed.value := by
  have packed : (values.map OscValue.value).map ArgValue.packed =
      values.map fun argument => argument.packed.value := by
    rw [List.map_map]
    exact List.map_congr_left fun argument _ => argument.packed_value
  have leaves : (∀ value ∈ values.map OscValue.value, ∀ leaf ∈ value.leaves,
      leaf.Fits ∧ leaf.Plain) ↔ ∀ argument ∈ values, argument.Packs := by
    rw [List.forall_mem_map]
    refine forall₂_congr fun argument _ => ?_
    rw [OscMessageBuilder.leaves_of_isLeaf argument.isLeaf_value,
      List.forall_mem_singleton, argument.packs_iff]
  rw [OscValue.exists_arrives_iff_packs, ← leaves, ← packed]
  exact (OscMessageBuilder.message_eq_ok_iff address _).symm

end AbletonTracks
