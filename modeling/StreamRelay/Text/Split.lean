/-!
# Splitting at a separator

A text is cut at every occurrence of a character, or at the first one only.
-/

namespace StreamRelay.Text

def split (separator : Char) (s : List Char) : List (List Char) :=
  s.foldr (fun c parts =>
    if c = separator then [] :: parts
    else match parts with
      | [] => [[c]]
      | part :: parts => (c :: part) :: parts) [[]]

def splitFirst? (separator : Char) : List Char → Option (List Char × List Char)
  | [] => none
  | c :: s =>
    if c = separator then some ([], s)
    else (splitFirst? separator s).map fun p => (c :: p.1, p.2)

def dropEnd? (ending s : List Char) : Option (List Char) :=
  if ending.isSuffixOf s then some (s.take (s.length - ending.length)) else none

end StreamRelay.Text
