import KalmanFilter.Failure
import KalmanFilter.Text.Float
import KalmanFilter.Text.Quoted

namespace KalmanFilter

def Shape.text : Shape → String
  | [] => "()"
  | [n] => "(" ++ toString n ++ ",)"
  | ns => "(" ++ ", ".intercalate (ns.map toString) ++ ")"

namespace Datum

def Kind.name : Kind → String
  | .none => "NoneType"
  | .bool => "bool"
  | .int => "int"
  | .real => "float"
  | .text => "str"
  | .list => "list"
  | .record => "dict"

mutual

def written : Datum Machine → String
  | .none => "None"
  | .bool b => if b then "True" else "False"
  | .int i => toString i
  | .real x => Text.shortest x
  | .text s => Text.quoted s
  | .list items => "[" ++ ", ".intercalate (writtenItems items) ++ "]"
  | .record fields => "\x7b" ++ ", ".intercalate (writtenFields fields) ++ "\x7d"

def writtenItems : List (Datum Machine) → List String
  | [] => []
  | d :: ds => written d :: writtenItems ds

def writtenFields : List (String × Datum Machine) → List String
  | [] => []
  | (name, d) :: fields => (Text.quoted name ++ ": " ++ written d) :: writtenFields fields

end

def shown : Datum Machine → String
  | .text s => s
  | d => written d

end Datum

end KalmanFilter
