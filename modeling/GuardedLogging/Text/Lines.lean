/-!
# Line ends

Text files end their lines with a line feed, a carriage return, or both; inside the program every line ends with a line feed.
-/

namespace GuardedLogging

/-- The text with every line end written as one line feed. -/
def unifyLineEnds : List Char → List Char
  | '\r' :: '\n' :: rest => '\n' :: unifyLineEnds rest
  | '\r' :: rest => '\n' :: unifyLineEnds rest
  | c :: rest => c :: unifyLineEnds rest
  | [] => []

end GuardedLogging
