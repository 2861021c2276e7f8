import HeaderBook.FragmentTable

/-!
# Folded blocks

A braced block is replaced by a marker as soon as its closing brace is reached,
so an outer block's fragment already holds the markers of the blocks inside it,
and markers are numbered in closing order. A closing brace with nothing open and
an opening brace that is never closed stay where they are.
-/

namespace HeaderBook.Source

/-- The state of a folding pass. Buffers hold their characters last first. -/
structure Folding where
  /-- The text collected since the innermost opening brace, that brace included. -/
  current : Text := []
  /-- The texts collected outside it, the innermost first. -/
  outer : List Text := []
  table : FragmentTable

namespace Folding

/-- Takes one more character of the text. -/
def step (state : Folding) (c : Char) : Folding :=
  if c = '\x7b' then
    { state with current := [c], outer := state.current :: state.outer }
  else if c = '\x7d' then
    match state.outer with
    | [] => { state with current := c :: state.current }
    | around :: outer =>
      let (marker, table) := state.table.mark (c :: state.current).reverse
      { current := marker.reverse ++ around, outer, table }
  else
    { state with current := c :: state.current }

/-- The text at the end of a pass: what is still open is written back where it
stood. -/
def finish (state : Folding) : Text :=
  (state.current ++ state.outer.flatten).reverse

end Folding

/-- Replaces every matched pair of braces with all between them by a marker. -/
def foldBlocks (text : Text) (table : FragmentTable) : Text × FragmentTable :=
  let state := text.foldl Folding.step { table }
  (state.finish, state.table)

end HeaderBook.Source
