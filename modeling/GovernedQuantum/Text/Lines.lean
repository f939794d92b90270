/-!
# Lines of a text

A line ends at a line feed. One carriage return right before that feed belongs to the ending; any
other carriage return is part of its line. A text that ends in a line feed has no empty last line.
-/

namespace GovernedQuantum.Text

/-- A line read backwards, without the carriage return that a line feed followed. -/
def dropReturn : List Char → List Char
  | '\r' :: rest => rest
  | cs => cs

/-- The lines of the text to come: `opened` is the unfinished line backwards, `closed` the finished
ones, last one first. -/
def linesFrom (opened : List Char) (closed : List (List Char)) : List Char → List (List Char)
  | [] => (if opened.isEmpty then closed else opened.reverse :: closed).reverse
  | '\n' :: rest => linesFrom [] ((dropReturn opened).reverse :: closed) rest
  | c :: rest => linesFrom (c :: opened) closed rest

def lines (cs : List Char) : List (List Char) := linesFrom [] [] cs

end GovernedQuantum.Text
