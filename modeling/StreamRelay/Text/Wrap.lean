import StreamRelay.Text.Cluster
import StreamRelay.Text.Columns
import StreamRelay.Text.Split

/-!
# Wrapping

A line that is too wide is broken at its blanks, and a word that is too wide for a whole line is
broken between its clusters. Words are put on a line as long as they fit, and a line is finished as
soon as a blank and one more character would not.
-/

namespace StreamRelay.Text

def minFree : Nat := 2

/-- How many characters the first clusters have that fit into the room together, beyond those that
have been taken. -/
def fit : (clusters : List (List Char)) → (room taken : Nat) → Nat
  | [], _, taken => taken
  | c :: cs, room, taken =>
    let n := columns c
    if n ≤ room then fit cs (room - n) (taken + c.length) else taken

/-- A word in pieces that fill lines of their own, and what remains for the line behind them. A
cluster that is wider than a line is cut behind its first character. -/
def chop (width : Nat) (word : List Char) : List (List Char) × List Char :=
  if columns word ≤ width then ([], word)
  else
    match word with
    | [] => ([], [])
    | c :: s =>
      let n := fit (clusters (c :: s)) width 0 - 1
      let (pieces, rest) := chop width (s.drop n)
      ((c :: s.take n) :: pieces, rest)
termination_by word.length
decreasing_by simp only [List.length_cons, List.length_drop]; omega

structure OpenLine where
  words : List (List Char) := []
  width : Nat := 0

namespace OpenLine

def text (l : OpenLine) : List Char := [' '].intercalate l.words.reverse

def ofWord (word : List Char) : OpenLine :=
  if word.isEmpty then {} else ⟨[word], columns word⟩

def add (l : OpenLine) (word : List Char) : OpenLine :=
  ⟨word :: l.words, l.width + 1 + columns word⟩

end OpenLine

structure Wrapping where
  done : List (List Char) := []
  line : OpenLine := {}

namespace Wrapping

def finish (t : Wrapping) : Wrapping := ⟨t.line.text :: t.done, {}⟩

def settle (width : Nat) (t : Wrapping) : Wrapping :=
  if width - minFree < t.line.width then t.finish else t

def begin (width : Nat) (done : List (List Char)) (word : List Char) : Wrapping :=
  let (pieces, rest) := chop width word
  settle width ⟨pieces.reverse ++ done, .ofWord rest⟩

/-- One more word. If it is wider than a line and some of it has room, it begins on this line. -/
def push (width : Nat) (t : Wrapping) (word : List Char) : Wrapping :=
  if t.line.words.isEmpty then begin width t.done word
  else
    let next := t.line.add word
    let room := width - t.line.width - 1
    if next.width ≤ width then settle width { t with line := next }
    else if columns word ≤ width || room ≤ minFree then begin width t.finish.done word
    else
      let n := fit (clusters word) room 0
      begin width ((t.line.add (word.take n)).text :: t.done) (word.drop n)

def lines (t : Wrapping) : List (List Char) :=
  (if t.line.words.isEmpty then t.done else t.finish.done).reverse

end Wrapping

def wrap (width : Nat) (line : List Char) : List (List Char) :=
  if columns line ≤ width then [line]
  else ((split ' ' line).foldl (Wrapping.push width) {}).lines

end StreamRelay.Text
