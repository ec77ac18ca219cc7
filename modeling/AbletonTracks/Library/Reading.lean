import Mathlib.Data.List.Basic

/-!
# Readers at a position

A reader takes a list and a position in it, and returns a value with the
position after what it has read, or fails.  Positions and slices are Python's:
a negative one counts from the end.

`Understands` says that a reader finds in a text the value that was written,
whatever stands before and after it.  `writeAll` writes several values one
after the other.
-/

namespace Library

variable {α ε β γ : Type}

/-- Where a slice begins or ends. -/
def sliceIndex (length : Nat) (index : Int) : Nat :=
  if index < 0 then (length + index).toNat else index.toNat

/-- `items[start:]`. -/
def sliceFrom (items : List α) (start : Int) : List α :=
  items.drop (sliceIndex items.length start)

/-- `items[start:stop]`. -/
def slice (items : List α) (start stop : Int) : List α :=
  (items.take (sliceIndex items.length stop)).drop
    (sliceIndex items.length start)

@[simp] theorem sliceIndex_natCast (length index : Nat) :
    sliceIndex length index = index := by
  rw [sliceIndex, if_neg (by omega), Int.toNat_natCast]

@[simp] theorem sliceFrom_append (before rest : List α) :
    sliceFrom (before ++ rest) before.length = rest := by
  simp [sliceFrom]

theorem slice_append (before written rest : List α) :
    slice (before ++ (written ++ rest)) before.length
      (before.length + written.length) = written := by
  rw [← Int.natCast_add, slice, sliceIndex_natCast, sliceIndex_natCast,
    ← List.append_assoc, ← List.length_append, List.take_left,
    List.drop_left]

theorem map_eq_ok {result : Except ε α} {f : α → β} {value : β} :
    result.map f = .ok value ↔ ∃ item, result = .ok item ∧ f item = value := by
  cases result <;> simp [Except.map]

/-- A reader: what it finds, and the position after it. -/
abbrev Reader (α ε β : Type) := List α → Int → Except ε (β × Int)

namespace Reader

/-- Read nothing. -/
def done (value : β) : Reader α ε β := fun _ start => .ok (value, start)

/-- Read on after what was read. -/
def andThen (first : Reader α ε β) (next : β → Reader α ε γ) :
    Reader α ε γ := fun items start =>
  match first items start with
  | .error failure => .error failure
  | .ok (value, middle) => next value items middle

variable (first : Reader α ε β) (next : β → Reader α ε γ)

theorem andThen_done : first.andThen done = first := by
  funext items start
  unfold andThen
  cases first items start <;> rfl

theorem andThen_assoc {δ : Type} (last : γ → Reader α ε δ) :
    (first.andThen next).andThen last =
      first.andThen fun value => (next value).andThen last := by
  funext items start
  unfold andThen
  cases first items start <;> rfl

end Reader

/-- Wherever a text stands, the reader finds the value in it and goes on right
after it. -/
def Understands (reader : Reader α ε β) (written : List α) (value : β) : Prop :=
  ∀ before rest, reader (before ++ (written ++ rest)) before.length =
    .ok (value, before.length + written.length)

namespace Understands

theorem done (value : β) :
    Understands (Reader.done value : Reader α ε β) [] value := by
  intro before rest
  simp [Reader.done]

theorem andThen
    {first : Reader α ε β} {next : β → Reader α ε γ}
    {written more : List α} {value : β} {result : γ}
    (understands : Understands first written value)
    (continues : Understands (next value) more result) :
    Understands (first.andThen next) (written ++ more) result := by
  intro before rest
  have found := understands before (more ++ rest)
  have goesOn := continues (before ++ written) rest
  rw [List.append_assoc, List.length_append, Int.natCast_add] at goesOn
  rw [Reader.andThen, List.append_assoc, found]
  dsimp only
  rw [goesOn, List.length_append, Int.natCast_add, Int.add_assoc]

end Understands

/-! ## Writing several values -/

/-- Write each item after the one before it. -/
def writeAll (write : α → Except ε (List β)) : List α → Except ε (List β)
  | [] => .ok []
  | item :: items =>
      match write item with
      | .error failure => .error failure
      | .ok own => (writeAll write items).map fun others => own ++ others

variable {write : α → Except ε (List β)} {written : List β}

theorem writeAll_cons_eq_ok {item : α} {items : List α} :
    writeAll write (item :: items) = .ok written ↔
      ∃ own others, write item = .ok own ∧ writeAll write items = .ok others ∧
        written = own ++ others := by
  rw [writeAll]
  cases write item with
  | error failure => simp
  | ok own =>
      simp only [map_eq_ok, Except.ok.injEq, eq_comm (b := written)]
      simp

theorem writeAll_append_eq_ok {first second : List α} :
    writeAll write (first ++ second) = .ok written ↔
      ∃ early late, writeAll write first = .ok early ∧
        writeAll write second = .ok late ∧ written = early ++ late := by
  induction first generalizing written with
  | nil => simp [writeAll, eq_comm]
  | cons item items inductionHypothesis =>
      rw [List.cons_append, writeAll_cons_eq_ok]
      simp only [writeAll_cons_eq_ok, inductionHypothesis]
      constructor
      · rintro ⟨own, _, wrote, ⟨early, late, first, second, rfl⟩, rfl⟩
        exact ⟨_, late, ⟨own, early, wrote, first, rfl⟩, second,
          (List.append_assoc _ _ _).symm⟩
      · rintro ⟨_, late, ⟨own, early, wrote, first, rfl⟩, second, rfl⟩
        exact ⟨own, _, wrote, ⟨early, late, first, second, rfl⟩,
          List.append_assoc _ _ _⟩

end Library
