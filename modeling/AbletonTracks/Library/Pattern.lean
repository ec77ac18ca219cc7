import AbletonTracks.Library.Text

/-!
# Text patterns with word boundaries

A backtracking text pattern that sees where a word begins and ends.  It lists,
in the order in which a matcher tries them, the places at which a match can
end.  Which characters are those of words is a parameter.
-/

namespace Library

/-- A place in a text, with what is before it, last character first. -/
structure Place where
  before : List Char
  after : List Char
  deriving DecidableEq

/-- A text pattern. -/
inductive Pattern
  | nothing
  /-- `\b`. -/
  | boundary
  | one (accepts : Char → Bool)
  /-- `x*`. -/
  | many (accepts : Char → Bool)
  | sequence (first second : Pattern)
  /-- `x|y`. -/
  | either (first second : Pattern)

namespace Pattern

/-- `x?`. -/
def optional (pattern : Pattern) : Pattern := either pattern nothing

/-- `x+`. -/
def some' (accepts : Char → Bool) : Pattern :=
  sequence (one accepts) (many accepts)

/-- Patterns one after the other. -/
def all (patterns : List Pattern) : Pattern := patterns.foldr sequence nothing

/-- Patterns of which one is to match, the first that does. -/
def any : List Pattern → Pattern
  | [] => nothing
  | [pattern] => pattern
  | pattern :: others => either pattern (any others)

/-- A lower-case letter in either case, with the two letters without a dot and
of another shape that are taken for the same. -/
def letter (lower char : Char) : Bool :=
  (Text.lowerChar char).head? = some lower ||
    (lower = 'i' && char = Char.ofNat 0x131) ||
    (lower = 's' && char = Char.ofNat 0x17F)

/-- A fixed text of lower-case letters, in either case. -/
def text (letters : String) : Pattern :=
  all (letters.toList.map fun lower => one (letter lower))

/-- The steps of `x*`, the longest run first. -/
def runs (accepts : Char → Bool) : List Char → List Char → List Place
  | before, [] => [⟨before, []⟩]
  | before, char :: rest =>
      if accepts char then
        runs accepts (char :: before) rest ++ [⟨before, char :: rest⟩]
      else [⟨before, char :: rest⟩]

variable (isWord : Char → Bool)

/-- Where a match that starts at a place can end. -/
def tries : Pattern → Place → List Place
  | nothing, place => [place]
  | boundary, place =>
      if place.before.head?.any isWord ≠ place.after.head?.any isWord then
        [place]
      else []
  | one accepts, ⟨before, after⟩ =>
      match after with
      | [] => []
      | char :: rest => if accepts char then [⟨char :: before, rest⟩] else []
  | many accepts, ⟨before, after⟩ => runs accepts before after
  | sequence first second, place =>
      (first.tries place).flatMap second.tries
  | either first second, place => first.tries place ++ second.tries place

/-- `re.search`, without the match itself. -/
def found (pattern : Pattern) : List Char → List Char → Bool
  | before, [] => !(pattern.tries isWord ⟨before, []⟩).isEmpty
  | before, char :: rest =>
      !(pattern.tries isWord ⟨before, char :: rest⟩).isEmpty ||
        found pattern (char :: before) rest

/-- The loop of `re.sub` with an empty replacement, which is still to skip the
rest of a match.  An empty match removes nothing. -/
def removeFrom (pattern : Pattern) : Nat → List Char → List Char → List Char
  | _, _, [] => []
  | skip + 1, before, char :: rest =>
      removeFrom pattern skip (char :: before) rest
  | 0, before, char :: rest =>
      match (pattern.tries isWord ⟨before, char :: rest⟩).head? with
      | none => char :: removeFrom pattern 0 (char :: before) rest
      | some ends =>
          match ends.before.length - before.length with
          | 0 => char :: removeFrom pattern 0 (char :: before) rest
          | skip + 1 => removeFrom pattern skip (char :: before) rest

/-- `re.search(pattern, text)` finds something. -/
def search (pattern : Pattern) (text : List Char) : Bool :=
  pattern.found isWord [] text

/-- `re.sub(pattern, "", text)`. -/
def remove (pattern : Pattern) (text : List Char) : List Char :=
  pattern.removeFrom isWord 0 [] text

end Pattern
end Library
