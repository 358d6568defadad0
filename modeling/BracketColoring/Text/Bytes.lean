/-!
# Bytes of a text

Places in a text are also counted in bytes of UTF-8. A text can be cut only where a character starts
or at its end; elsewhere there is no piece.
-/

namespace BracketColoring

def byteCount (text : List Char) : Nat := (text.map Char.utf8Size).foldr (· + ·) 0

/-- The text after a number of bytes, if they end between two characters. -/
def dropBytes? : Nat → List Char → Option (List Char)
  | 0, cs => some cs
  | _ + 1, [] => none
  | n + 1, c :: rest => if c.utf8Size ≤ n + 1 then dropBytes? (n + 1 - c.utf8Size) rest else none
termination_by structural _ cs => cs

/-- The text before a number of bytes, if they end between two characters. -/
def takeBytes? : Nat → List Char → Option (List Char)
  | 0, _ => some []
  | _ + 1, [] => none
  | n + 1, c :: rest =>
    if c.utf8Size ≤ n + 1 then (takeBytes? (n + 1 - c.utf8Size) rest).map (c :: ·) else none
termination_by structural _ cs => cs

/-- The piece of a text between two bytes, if it starts and ends between characters. -/
def slice? (text : List Char) (start stop : Nat) : Option (List Char) :=
  if start ≤ stop then (dropBytes? start text).bind (takeBytes? (stop - start)) else none

end BracketColoring
