import BatchScript.Text.Basic

/-!
# Line breaks

A file may end its lines with a carriage return, a line feed, or both in this order. Inside the
library a line feed alone ends a line.
-/

namespace BatchScript.Text

/-- A text in which a line feed stands for each of the three line breaks. -/
def unifyLineBreaks : Text → Text
  | [] => []
  | '\r' :: '\n' :: cs => char '\n' :: unifyLineBreaks cs
  | c :: cs => (if c = '\r' then '\n' else c) :: unifyLineBreaks cs

end BatchScript.Text
