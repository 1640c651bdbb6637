/-! Operators, and the functions that they stand for. -/
namespace Cqasm.Tree

inductive UnaryOperator where
  | negate | complement | not
  deriving DecidableEq, Repr

inductive BinaryOperator where
  | power | multiply | divide | remainder | add | subtract | shiftLeft | shiftRight
  | greater | less | greaterEqual | lessEqual | equal | notEqual
  | bitAnd | bitXor | bitOr | and | xor | or
  deriving DecidableEq, Repr

def UnaryOperator.symbol : UnaryOperator → String
  | .negate => "-"
  | .complement => "~"
  | .not => "!"

def BinaryOperator.symbol : BinaryOperator → String
  | .power => "**"
  | .multiply => "*"
  | .divide => "/"
  | .remainder => "%"
  | .add => "+"
  | .subtract => "-"
  | .shiftLeft => "<<"
  | .shiftRight => ">>"
  | .greater => ">"
  | .less => "<"
  | .greaterEqual => ">="
  | .lessEqual => "<="
  | .equal => "=="
  | .notEqual => "!="
  | .bitAnd => "&"
  | .bitXor => "^"
  | .bitOr => "|"
  | .and => "&&"
  | .xor => "^^"
  | .or => "||"

def UnaryOperator.all : List UnaryOperator := [.negate, .complement, .not]

def BinaryOperator.all : List BinaryOperator :=
  [.power, .multiply, .divide, .remainder, .add, .subtract, .shiftLeft, .shiftRight, .greater, .less,
    .greaterEqual, .lessEqual, .equal, .notEqual, .bitAnd, .bitXor, .bitOr, .and, .xor, .or]

def UnaryOperator.ofSymbol? (symbol : String) : Option UnaryOperator :=
  UnaryOperator.all.find? fun op => op.symbol == symbol

def BinaryOperator.ofSymbol? (symbol : String) : Option BinaryOperator :=
  BinaryOperator.all.find? fun op => op.symbol == symbol

theorem UnaryOperator.symbolRoundTrip (op : UnaryOperator) :
    UnaryOperator.ofSymbol? op.symbol = some op := by
  cases op <;> decide

theorem BinaryOperator.symbolRoundTrip (op : BinaryOperator) :
    BinaryOperator.ofSymbol? op.symbol = some op := by
  cases op <;> decide

def operatorName (symbol : String) : String := "operator" ++ symbol

end Cqasm.Tree
