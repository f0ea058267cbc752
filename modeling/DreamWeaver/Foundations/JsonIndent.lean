import DreamWeaver.Foundations.JsData
import DreamWeaver.Foundations.JsonWriter

/-! # Documents for readers

`JSON.stringify` with two spaces of indentation, and the data of a document that was parsed. -/

namespace DreamWeaver

/-- The lines of a value, each behind a line break and an indentation. -/
def linesText (indent : Text) : List Text → Text
  | [] => []
  | [line] => 10 :: indent ++ line
  | line :: line' :: lines => 10 :: indent ++ line ++ 44 :: linesText indent (line' :: lines)

/-- Lines between brackets, further in than the brackets. -/
def bracketed (opening closing : CodeUnit) (indent : Text) (lines : List Text) : Text :=
  if lines.isEmpty then [opening, closing]
  else opening :: linesText (indent ++ [32, 32]) lines ++ 10 :: indent ++ [closing]

mutual

/-- `JSON.stringify(v, null, 2)` at an indentation. -/
def stringifyAt (indent : Text) : Json → Text
  | .arr items => bracketed 91 93 indent (stringifyItemsAt (indent ++ [32, 32]) items)
  | .obj fields => bracketed 123 125 indent
      ((ownOrder (stringifyFieldsAt (indent ++ [32, 32]) fields)).map fun e => quote e.1 ++ 58 :: 32 :: e.2)
  | v => stringify v

def stringifyItemsAt (indent : Text) : List Json → List Text
  | [] => []
  | v :: vs => stringifyAt indent v :: stringifyItemsAt indent vs

def stringifyFieldsAt (indent : Text) : List (Text × Json) → List (Text × Text)
  | [] => []
  | (key, v) :: fields => (key, stringifyAt indent v) :: stringifyFieldsAt indent fields

end

example : stringifyAt [] (.obj [(lit "a", .arr [.bool true, .null]), (lit "b", .obj [])]) =
    lit "\x7b\n  \"a\": [\n    true,\n    null\n  ],\n  \"b\": \x7b\x7d\n\x7d" := by decide +kernel

mutual

/-- The data of a document. -/
def Json.data : Json → JsData
  | .null => .null
  | .bool b => .bool b
  | .num x => .num x
  | .str text => .str text
  | .arr items => .arr (dataItems items)
  | .obj fields => .obj (dataFields fields)

def dataItems : List Json → List JsData
  | [] => []
  | v :: vs => v.data :: dataItems vs

def dataFields : List (Text × Json) → List (Text × JsData)
  | [] => []
  | (key, v) :: fields => (key, v.data) :: dataFields fields

end

/-- The value counts as true. -/
def JsData.truthy : JsData → Bool
  | .undefined => false
  | .null => false
  | .bool b => b
  | .num .nan => false
  | .num x => x != .finite 0
  | .str text => !text.isEmpty
  | _ => true

/-- `value || default` -/
def JsData.orElse (value default : JsData) : JsData := if value.truthy then value else default

end DreamWeaver
