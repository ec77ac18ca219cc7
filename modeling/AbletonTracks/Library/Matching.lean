import Mathlib.Data.String.Basic

/-!
# Matching text with backtracking

The building blocks of a backtracking text pattern.  Each one lists, in the
order in which a matcher tries them, the ways it can match at the start of the
remaining input; a pattern is their sequence, and its match is the first
success.
-/

namespace Library
namespace Matching

/-- A fixed text: what is left of the input after it. -/
def literal (text input : List Char) : List (List Char) :=
  if text.isPrefixOf input then [input.drop text.length] else []

/-- `x*`: what is left after the longest run of accepted characters first. -/
def greedyStar (accepts : Char → Bool) : List Char → List (List Char)
  | [] => [[]]
  | char :: rest =>
      if accepts char then greedyStar accepts rest ++ [char :: rest]
      else [char :: rest]

/-- `(x+?)`: the captured characters and what is left, shortest first. -/
def lazyPlus (accepts : Char → Bool) :
    List Char → List (List Char × List Char)
  | [] => []
  | char :: rest =>
      if accepts char then
        ([char], rest) :: (lazyPlus accepts rest).map fun found =>
          (char :: found.1, found.2)
      else []

/-- `.`: any character but a line feed. -/
def anyChar (char : Char) : Bool := char ≠ '\n'

/-- `$`: the end of the input, or a final line feed. -/
def atEnd : List Char → Bool
  | [] => true
  | ['\n'] => true
  | _ => false

/-! ## What can match -/

variable {accepts : Char → Bool} {text input rest run : List Char}

theorem literal_append (text rest : List Char) :
    literal text (text ++ rest) = [rest] := by
  have here : text.isPrefixOf (text ++ rest) = true :=
    List.isPrefixOf_iff_prefix.mpr (List.prefix_append text rest)
  rw [literal, if_pos here, List.drop_left]

theorem mem_literal : rest ∈ literal text input ↔ input = text ++ rest := by
  constructor
  · intro member
    unfold literal at member
    split at member
    · rename_i here
      obtain ⟨after, rfl⟩ := List.isPrefixOf_iff_prefix.mp here
      obtain rfl := List.mem_singleton.mp member
      rw [List.drop_left]
    · cases member
  · rintro rfl
    rw [literal_append]
    exact List.mem_singleton_self rest

theorem mem_greedyStar :
    rest ∈ greedyStar accepts input ↔
      ∃ run, (∀ char ∈ run, accepts char = true) ∧ input = run ++ rest := by
  induction input with
  | nil => simp [greedyStar, and_comm]
  | cons char others inductionHypothesis =>
      unfold greedyStar
      constructor
      · intro member
        split at member
        · rename_i accepted
          rcases List.mem_append.mp member with later | here
          · obtain ⟨run, all, rfl⟩ := inductionHypothesis.mp later
            exact ⟨char :: run, List.forall_mem_cons.mpr ⟨accepted, all⟩, rfl⟩
          · obtain rfl := List.mem_singleton.mp here
            exact ⟨[], by simp, rfl⟩
        · obtain rfl := List.mem_singleton.mp member
          exact ⟨[], by simp, rfl⟩
      · rintro ⟨run, all, whole⟩
        cases run with
        | nil =>
            obtain rfl := whole
            split <;> simp
        | cons first run =>
            obtain ⟨rfl, rfl⟩ := List.cons.inj whole
            obtain ⟨accepted, all⟩ := List.forall_mem_cons.mp all
            rw [if_pos accepted]
            exact List.mem_append_left _
              (inductionHypothesis.mpr ⟨run, all, rfl⟩)

theorem mem_lazyPlus {found : List Char × List Char} :
    found ∈ lazyPlus accepts input ↔
      found.1 ++ found.2 = input ∧ found.1 ≠ [] ∧
        ∀ char ∈ found.1, accepts char = true := by
  induction input generalizing found with
  | nil =>
      simp only [lazyPlus, List.not_mem_nil, List.append_eq_nil_iff, false_iff]
      exact fun impossible => impossible.2.1 impossible.1.1
  | cons char others inductionHypothesis =>
      obtain ⟨captured, left⟩ := found
      unfold lazyPlus
      constructor
      · intro member
        split at member
        · rename_i accepted
          rcases List.mem_cons.mp member with here | later
          · obtain ⟨rfl, rfl⟩ := Prod.mk.inj here
            simp [accepted]
          · obtain ⟨inner, innerMember, same⟩ := List.mem_map.mp later
            obtain ⟨rfl, rfl⟩ := Prod.mk.inj same
            obtain ⟨rfl, _, all⟩ := inductionHypothesis.mp innerMember
            exact ⟨rfl, List.cons_ne_nil _ _,
              List.forall_mem_cons.mpr ⟨accepted, all⟩⟩
        · cases member
      · rintro ⟨whole, nonempty, all⟩
        cases captured with
        | nil => exact absurd rfl nonempty
        | cons first more =>
            obtain ⟨rfl, rfl⟩ := List.cons.inj whole
            obtain ⟨accepted, all⟩ := List.forall_mem_cons.mp all
            rw [if_pos accepted]
            cases more with
            | nil => exact List.mem_cons_self
            | cons next more =>
                refine List.mem_cons_of_mem _ (List.mem_map.mpr ?_)
                exact ⟨(next :: more, left),
                  inductionHypothesis.mpr ⟨rfl, List.cons_ne_nil _ _, all⟩, rfl⟩

/-! ## What is tried first -/

/-- Nothing is accepted: the star stays where it is. -/
theorem greedyStar_of_not
    {first : Char}
    (refused : accepts first = false)
    (rest : List Char) :
    greedyStar accepts (first :: rest) = [first :: rest] := by
  rw [greedyStar, if_neg (by simp [refused])]

/-- A greedy star goes past what it accepts before it gives any of it back. -/
theorem exists_greedyStar_append
    (all : ∀ char ∈ run, accepts char = true)
    (rest : List Char) :
    ∃ others, greedyStar accepts (run ++ rest) =
      greedyStar accepts rest ++ others := by
  induction run with
  | nil => exact ⟨[], by simp⟩
  | cons char more inductionHypothesis =>
      obtain ⟨accepted, all⟩ := List.forall_mem_cons.mp all
      obtain ⟨others, tried⟩ := inductionHypothesis all
      refine ⟨others ++ [char :: (more ++ rest)], ?_⟩
      rw [List.cons_append, greedyStar, if_pos accepted, tried,
        List.append_assoc]

/-- A lazy group is the shortest one after which the rest of the pattern
matches. -/
theorem head?_flatMap_lazyPlus
    {β : Type} {next : List Char × List Char → List β}
    {captured : List Char}
    (all : ∀ char ∈ captured, accepts char = true)
    (nonempty : captured ≠ [])
    (matches' : next (captured, rest) ≠ [])
    (shorter : ∀ early late, captured = early ++ late → early ≠ [] →
      late ≠ [] → next (early, late ++ rest) = []) :
    ((lazyPlus accepts (captured ++ rest)).flatMap next).head? =
      (next (captured, rest)).head? := by
  induction captured generalizing next with
  | nil => exact absurd rfl nonempty
  | cons char more inductionHypothesis =>
      obtain ⟨accepted, all⟩ := List.forall_mem_cons.mp all
      rw [List.cons_append, lazyPlus, if_pos accepted, List.flatMap_cons,
        List.head?_append]
      cases more with
      | nil =>
          cases found : next ([char], rest) with
          | nil => exact absurd found matches'
          | cons first others => rw [List.nil_append, found]; rfl
      | cons second more =>
          have missed := shorter [char] (second :: more) rfl
            (List.cons_ne_nil _ _) (List.cons_ne_nil _ _)
          rw [missed, List.head?_nil, Option.none_or, List.flatMap_map]
          refine inductionHypothesis all (List.cons_ne_nil _ _) matches' ?_
          intro early late split some' some''
          exact shorter (char :: early) late (by rw [split]; rfl)
            (List.cons_ne_nil _ _) some''

end Matching
end Library
