/-!
# Written forms

How numbers and composite values are written wherever the library produces text: messages,
journal lines, descriptions. Every description is built from the few shapes below.
-/

namespace DemandPaging

/-- A number in base sixteen, lower case, after `0x`. -/
def hexText (n : Nat) : String :=
  "0x" ++ String.ofList (Nat.toDigits 16 n)

/-- A truth value as `true` or `false`. -/
def boolText : Bool → String
  | true => "true"
  | false => "false"

/-- A record: its name, then its fields with their names, in braces. -/
def recordText (name : String) (fields : List (String × String)) : String :=
  let written := fields.map fun field => field.1 ++ ": " ++ field.2
  name ++ " \x7b " ++ ", ".intercalate written ++ " \x7d"

/-- A name applied to one value. -/
def appliedText (name arg : String) : String :=
  name ++ "(" ++ arg ++ ")"

/-- An optional value: `None`, or the value under `Some`. -/
def optionText : Option String → String
  | none => "None"
  | some text => appliedText "Some" text

end DemandPaging
