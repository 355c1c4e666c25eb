import CheatCode.Text

/-!
# Lines of a text

A line ends at a line feed, together with one carriage return just before it.
A carriage return anywhere else belongs to its line, and nothing after the last
line feed is no line.
-/

namespace CheatCode.Text

/-- The lines of a text, without what ends them. -/
def lines : Text → List Text
  | [] => []
  | '\r' :: '\n' :: rest => [] :: lines rest
  | '\n' :: rest => [] :: lines rest
  | c :: rest =>
    match lines rest with
    | [] => [[c]]
    | line :: more => (c :: line) :: more

@[simp] theorem lines_nil : lines [] = [] := rfl

/-- Texts one after another with a separator between neighbours. -/
def join (separator : Text) : List Text → Text
  | [] => []
  | [t] => t
  | t :: rest => t ++ separator ++ join separator rest

/-- Lines put back into one text, a line feed between neighbours. -/
def unlines : List Text → Text := join ['\n']

@[simp] theorem join_nil (separator : Text) : join separator [] = [] := rfl

@[simp] theorem join_singleton (separator t : Text) : join separator [t] = t := rfl

@[simp] theorem join_cons_cons (separator t u : Text) (rest : List Text) :
    join separator (t :: u :: rest) = t ++ separator ++ join separator (u :: rest) := rfl

end CheatCode.Text
