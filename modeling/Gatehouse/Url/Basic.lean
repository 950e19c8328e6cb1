import Gatehouse.Url.Host
import Gatehouse.Text.Blank

/-!
A URL reference taken apart: scheme, authority, path, query and fragment. Controls and spaces before it are
dropped, tabs and line breaks anywhere in it. Nothing is decoded.
-/

namespace Gatehouse

/-- The parts of a URL reference; a part that is missing is empty. -/
structure Url where
  scheme : List Char
  authority : List Char
  path : List Char
  query : List Char
  fragment : List Char
  deriving DecidableEq, Repr

namespace Url

open Text

/-- Characters dropped at the start of a reference. -/
def isLeadingJunk (c : Char) : Bool := c.toNat ≤ 0x20

/-- Characters dropped everywhere in a reference. -/
def isRemoved (c : Char) : Bool := c == '\t' || c == '\r' || c == '\n'

def isSchemeChar (c : Char) : Bool :=
  ('a' ≤ c && c ≤ 'z') || ('A' ≤ c && c ≤ 'Z') || ('0' ≤ c && c ≤ '9') ||
    c == '+' || c == '-' || c == '.'

def isAsciiLetter (c : Char) : Bool := ('a' ≤ c && c ≤ 'z') || ('A' ≤ c && c ≤ 'Z')

/-- The scheme in lower case and what follows its colon. -/
def splitScheme (cs : List Char) : List Char × List Char :=
  match cut ':' cs with
  | (scheme, some rest) =>
      if scheme.head?.any isAsciiLetter && scheme.all isSchemeChar then
        (scheme.map Char.toLower, rest)
      else ([], cs)
  | (_, none) => ([], cs)

def endsAuthority (c : Char) : Bool := c == '/' || c == '?' || c == '#'

/-- The authority after a leading `//`, and the rest. -/
def splitAuthority : List Char → List Char × List Char
  | '/' :: '/' :: rest => (rest.takeWhile (!endsAuthority ·), rest.dropWhile (!endsAuthority ·))
  | cs => ([], cs)

def parse (text : List Char) : Except UrlFault Url := do
  let cs := (text.dropWhile isLeadingJunk).filter (!isRemoved ·)
  let (scheme, rest) := splitScheme cs
  let (authority, rest) := splitAuthority rest
  checkBrackets authority
  let (rest, fragment) := cut '#' rest
  let (path, query) := cut '?' rest
  checkDelimiters authority
  return { scheme, authority, path, query := query.getD [], fragment := fragment.getD [] }

/-! ## Absolute paths -/

/-- A scheme would begin with a letter. -/
theorem splitScheme_slash (cs : List Char) : splitScheme ('/' :: cs) = ([], '/' :: cs) := by
  rw [splitScheme, cut, if_neg (by decide)]
  cases cut ':' cs with
  | mk front rest => cases rest <;> rfl

theorem splitAuthority_slash {cs : List Char} (h : cs.head? ≠ some '/') :
    splitAuthority ('/' :: cs) = ([], '/' :: cs) := by
  cases cs with
  | nil => rfl
  | cons c rest =>
    have hc : c ≠ '/' := by simpa using h
    unfold splitAuthority
    split
    · rename_i heq
      injection heq with _ heq
      injection heq with heq _
      exact absurd heq hc
    · rfl

/-- What starts with one slash is a path up to its query and its fragment. -/
theorem parse_slash {cs : List Char} (hslash : cs.head? ≠ some '/') (hremoved : ∀ c ∈ cs, isRemoved c = false) :
    let (rest, fragment) := cut '#' ('/' :: cs)
    let (path, query) := cut '?' rest
    parse ('/' :: cs) = .ok ⟨[], [], path, query.getD [], fragment.getD []⟩ := by
  have hjunk : ('/' :: cs).dropWhile isLeadingJunk = '/' :: cs :=
    List.dropWhile_cons_of_neg (by decide)
  have hfilter : ('/' :: cs).filter (!isRemoved ·) = '/' :: cs := by
    rw [List.filter_eq_self]
    intro c hc
    rcases List.mem_cons.1 hc with rfl | hc
    · decide
    · rw [hremoved c hc]
      rfl
  unfold parse
  dsimp only
  rw [hjunk, hfilter, splitScheme_slash, splitAuthority_slash hslash]
  rfl

/-- A path that starts with one slash and holds no delimiter or removed character is its own path. -/
theorem parse_path {cs : List Char} (hslash : cs.head? ≠ some '/') (hfragment : '#' ∉ cs) (hquery : '?' ∉ cs)
    (hremoved : ∀ c ∈ cs, isRemoved c = false) :
    parse ('/' :: cs) = .ok ⟨[], [], '/' :: cs, [], []⟩ := by
  have hparse := parse_slash hslash hremoved
  rw [cut_of_not_mem (show '#' ∉ '/' :: cs by simp [hfragment])] at hparse
  dsimp only at hparse
  rw [cut_of_not_mem (show '?' ∉ '/' :: cs by simp [hquery])] at hparse
  exact hparse

end Url

end Gatehouse
