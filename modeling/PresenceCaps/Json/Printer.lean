import PresenceCaps.Text.Numeral
import PresenceCaps.Datum.Basic

/-! Writing data as JSON texts. -/
namespace PresenceCaps.Json

def escaped (c : Char) : List Char :=
  if c = '"' then ['\\', '"']
  else if c = '\\' then ['\\', '\\']
  else if c.toNat < 0x20 then ['\\', 'u', '0', '0', hexDigit (c.toNat / 16), hexDigit (c.toNat % 16)]
  else [c]

def quoted (s : String) : String := String.ofList ('"' :: s.toList.flatMap escaped ++ ['"'])

mutual

def print : Datum → String
  | .null => "null"
  | .bool b => if b then "true" else "false"
  | .int n => toString n
  | .real literal => literal
  | .text s => quoted s
  | .list ts => "[" ++ ",".intercalate (printItems ts) ++ "]"
  | .table es => "\x7b" ++ ",".intercalate (printEntries es) ++ "\x7d"

def printItems : List Datum → List String
  | [] => []
  | t :: ts => print t :: printItems ts

def printEntries : List (String × Datum) → List String
  | [] => []
  | (k, t) :: es => (quoted k ++ ":" ++ print t) :: printEntries es

end

end PresenceCaps.Json
