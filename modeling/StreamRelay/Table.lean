import StreamRelay.Text.Wrap

/-!
# Tables

A table has a header and rows of cells, drawn with a frame. A column is as wide as its widest line,
and a cell with line breaks takes several lines. There is a limit to the width of a column, and a
line beyond it is wrapped.
-/

namespace StreamRelay

structure Table where
  header : List String
  rows : List (List String)

namespace Table

abbrev Cell := List (List Char)

def cell (s : String) : Cell := Text.split '\n' s.toList

def maxColumns : Nat := 65535

def cellColumns (c : Cell) : Nat := min ((c.map Text.columns).foldl max 1) maxColumns

def framed (width : Nat) : Nat := min (width + 2) maxColumns

structure Rule where
  left : Char
  fill : Char
  crossing : Char
  right : Char

def topRule : Rule := ⟨'┌', '─', '┬', '┐'⟩
def headerRule : Rule := ⟨'╞', '═', '╪', '╡'⟩
def rowRule : Rule := ⟨'├', '╌', '┼', '┤'⟩
def bottomRule : Rule := ⟨'└', '─', '┴', '┘'⟩

def Rule.draw (r : Rule) (widths : List Nat) : List Char :=
  r.left :: [r.crossing].intercalate (widths.map fun w => List.replicate (framed w) r.fill)
    ++ [r.right]

/-- One line of a cell in a column of this width, with a blank on each side. These are there at the
limit too. -/
def padded (width : Nat) (line : List Char) : List Char :=
  ' ' :: line ++ List.replicate (width - Text.columns line) ' ' ++ [' ']

def drawCell (width : Nat) (c : Cell) : List (List Char) :=
  (c.flatMap (Text.wrap width)).map (padded width)

def drawRow (widths : List Nat) (cells : List Cell) : List (List Char) :=
  let columns := (widths.zip cells).map fun p => (framed p.1, (drawCell p.1 p.2).toArray)
  let height := (columns.map fun p => p.2.size).foldl max 0
  (List.range height).map fun i =>
    '│' :: ['┆'].intercalate (columns.map fun p => p.2.getD i (List.replicate p.1 ' ')) ++ ['│']

def widths (rows : List (List Cell)) : List Nat :=
  rows.foldl (fun ws cells => ws.zipWith max (cells.map cellColumns))
    (List.replicate ((rows.map List.length).foldl max 0) 0)

def lines (t : Table) : List (List Char) :=
  let header := t.header.map cell
  let rows := t.rows.map fun r => r.map cell
  let ws := widths (header :: rows)
  topRule.draw ws :: drawRow ws header ++ [headerRule.draw ws]
    ++ [rowRule.draw ws].intercalate (rows.map (drawRow ws)) ++ [bottomRule.draw ws]

def render (t : Table) : String := String.ofList (['\n'].intercalate t.lines)

end Table

end StreamRelay
