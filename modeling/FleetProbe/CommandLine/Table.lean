import FleetProbe.Text.Basic
/-!
Tables of two columns, drawn with lines.
-/

namespace FleetProbe.CommandLine.Table

/-- Widths of the columns: as wide as the widest text in each. -/
def widths (rows : List (Text × Text)) : Nat × Nat :=
  rows.foldl (fun (a, b) (x, y) => (max a x.length, max b y.length)) (0, 0)

def pad (width : Nat) (t : Text) : String := t.display ++ "".pushn ' ' (width - t.length)

/-- A line between rows. -/
def rule (left line middle right : Char) (w : Nat × Nat) : String :=
  (("".push left).pushn line (w.1 + 2) |>.push middle |>.pushn line (w.2 + 2)).push right

def row (bar : Char) (w : Nat × Nat) (r : Text × Text) : String :=
  let bar := String.singleton bar
  bar ++ " " ++ pad w.1 r.1 ++ " " ++ bar ++ " " ++ pad w.2 r.2 ++ " " ++ bar

/-- A title in the middle of a line. -/
def centered (width : Nat) (title : String) : String :=
  let left := (width - title.length) / 2
  ("".pushn ' ' left ++ title).pushn ' ' (width - title.length - left)

/-- The lines of a table. -/
def lines (title : String) (header : Text × Text) (rows : List (Text × Text)) : List String :=
  let w := widths (header :: rows)
  [centered (w.1 + w.2 + 7) title, rule '┏' '━' '┳' '┓' w, row '┃' w header,
    rule '┡' '━' '╇' '┩' w]
    ++ rows.map (row '│' w) ++ [rule '└' '─' '┴' '┘' w]

end FleetProbe.CommandLine.Table
