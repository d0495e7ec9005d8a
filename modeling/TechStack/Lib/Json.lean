import TechStack.Lib.Bytes

/-!
# JSON texts

What `encoding/json` writes for objects, for texts that need no escaping.
-/

namespace TechStack.Lib.Json

/-- The bytes of an ASCII text. -/
def ascii (text : String) : Bytes := text.toList.map fun c => UInt8.ofNat c.toNat

/-- A string that needs no escaping. -/
def quoted (text : String) : Bytes := 0x22 :: (ascii text ++ [0x22])

def int (n : ℤ) : Bytes := ascii (toString n)

def bool (b : Bool) : Bytes := ascii (if b then "true" else "false")

/-- One member of an object. -/
def member (key : String) (value : Bytes) : List Bytes := [quoted key ++ 0x3A :: value]

/-- A member that is left out if its value is empty. -/
def omitEmpty (empty : Bool) (member : List Bytes) : List Bytes := if empty then [] else member

/-- An object: its members between braces, with commas between them. -/
def object (members : List Bytes) : Bytes :=
  0x7B :: ((members.intersperse [0x2C]).flatten ++ [0x7D])

def array (values : List Bytes) : Bytes :=
  0x5B :: ((values.intersperse [0x2C]).flatten ++ [0x5D])

/-- A member for a part that may be missing. -/
def optional {α : Type} (key : String) (text : α → Bytes) : Option α → List Bytes
  | none => []
  | some a => member key (text a)

end TechStack.Lib.Json
