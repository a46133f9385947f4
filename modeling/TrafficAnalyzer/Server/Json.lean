import TrafficAnalyzer.Lib.Printf

/-!
# JSON values and how they are read (`json_get_str`, `json_get_num`)

The value that `cJSON_ParseWithLength` or `cJSON_Parse` leaves behind. A string may hold any bytes:
an escape `\u0000` puts a NUL among them, and C code then sees it up to there.
-/

namespace TrafficAnalyzer

/-- A string behind a `char *`. -/
abbrev CStr := { s : Bytes // (0 : UInt8) ∉ s }

inductive Json
  | null
  | bool (b : Bool)
  | number (valuedouble : Binary64)
  | string (valuestring : Bytes)
  | array (items : List Json)
  | object (members : List (Bytes × Json))

def Json.isObject : Json → Bool
  | .object _ => true
  | _ => false

/-- `cJSON_GetObjectItemCaseSensitive`: the first member whose name compares equal. -/
def Json.getItem (name : Bytes) : Json → Option Json
  | .object members => (members.find? fun m => cString m.1 = name).map (·.2)
  | _ => none

/-- `tolower` in the C locale. -/
def toLower (c : UInt8) : UInt8 := if 65 ≤ c ∧ c ≤ 90 then c + 32 else c

/-- `cJSON_GetObjectItem`: the case of the letters is ignored. -/
def Json.getItemAnyCase (name : Bytes) : Json → Option Json
  | .object members =>
    (members.find? fun m => (cString m.1).map toLower = name.map toLower).map (·.2)
  | _ => none

/-- `json_get_str` with the fallback `NULL`. -/
def jsonGetStr (obj : Json) (key : Bytes) : Option Bytes :=
  match obj.getItem key with
  | some (.string s) => some s
  | _ => none

/-- `json_get_num`. -/
def jsonGetNum (obj : Json) (key : Bytes) : Option Binary64 :=
  match obj.getItem key with
  | some (.number x) => some x
  | _ => none

end TrafficAnalyzer
