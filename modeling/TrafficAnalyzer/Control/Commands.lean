import TrafficAnalyzer.Lib.Printf

/-!
# Signed commands (`scripts/ctl.py`)

The Python values that JSON decodes to, the signature of a payload, and the message that
`ctl.py send` publishes. The JSON library and HMAC-SHA256 are parameters.

* `decodeUtf8_some_iff`: which bytes `decode` accepts, and as what text.
* `hexdigest_ascii`: a signature is an ASCII text.
* `signed_pop`: taking `sig` off a signed payload gives the payload back.
-/

namespace TrafficAnalyzer

/-! ## Python values -/

/-- The code points of a `str`. -/
abbrev PyStr := List Nat

/-- A literal. -/
def py (s : String) : PyStr := s.toList.map Char.toNat

inductive PyValue
  | none
  | bool (b : Bool)
  | int (n : Int)
  | float (x : Binary64)
  | str (s : PyStr)
  | list (items : List PyValue)
  | dict (entries : List (PyStr × PyValue))

/-- A `dict` with the keys in the order of their insertion. -/
abbrev PyDict := List (PyStr × PyValue)

/-- `d.get(key)`, and `d[key]` as `pop` returns it. -/
def PyDict.get (d : PyDict) (key : PyStr) : Option PyValue := d.lookup key

/-- What `d.pop(key, None)` leaves. -/
def PyDict.without (d : PyDict) (key : PyStr) : PyDict := d.filter fun e => e.1 ≠ key

/-- The number of a value for which `isinstance(value, int)` holds: `bool` is a subclass. -/
def PyValue.asInt : PyValue → Option Int
  | .int n => some n
  | .bool b => some (if b then 1 else 0)
  | _ => Option.none

/-! ## UTF-8 -/

/-- `body.decode("utf-8")`; nothing for a `UnicodeDecodeError`. -/
def decodeUtf8 (body : Bytes) : Option PyStr :=
  (String.fromUTF8? body.toByteArray).map fun s => s.toList.map Char.toNat

theorem decodeUtf8_encoded (cs : List Char) :
    decodeUtf8 (cs.flatMap String.utf8EncodeChar) = some (cs.map Char.toNat) := by
  have hvalid : (cs.flatMap String.utf8EncodeChar).toByteArray.IsValidUTF8 := ⟨cs, rfl⟩
  have htext : String.fromUTF8 _ hvalid = String.ofList cs := rfl
  rw [decodeUtf8, String.fromUTF8?, dif_pos hvalid, Option.map_some, htext, String.toList_ofList]

/-- A text is decoded from its own encoding and from nothing else. -/
theorem decodeUtf8_some_iff {body : Bytes} {text : PyStr} :
    decodeUtf8 body = some text ↔
      ∃ cs : List Char, body = cs.flatMap String.utf8EncodeChar ∧ text = cs.map Char.toNat := by
  constructor
  · intro h
    by_cases hvalid : body.toByteArray.IsValidUTF8
    · obtain ⟨cs, hcs⟩ := hvalid
      have hbody : body = cs.flatMap String.utf8EncodeChar := by
        simpa [List.utf8Encode] using congrArg (fun b => b.data.toList) hcs
      rw [hbody, decodeUtf8_encoded] at h
      exact ⟨cs, hbody, (Option.some.inj h).symm⟩
    · rw [decodeUtf8, String.fromUTF8?, dif_neg hvalid] at h
      cases h
  · rintro ⟨cs, rfl, rfl⟩
    exact decodeUtf8_encoded cs

/-- An ASCII text is its own encoding. -/
theorem decodeUtf8_ascii {text : PyStr} (h : ∀ c ∈ text, c < 128) :
    decodeUtf8 (text.map UInt8.ofNat) = some text := by
  have hchar : ∀ c < 128, (Char.ofNat c).val.toNat = c := fun c hc => by
    have hvalid : c.isValidChar := .inl (by omega)
    rw [Char.ofNat, dif_pos hvalid]
    rfl
  refine decodeUtf8_some_iff.mpr ⟨text.map Char.ofNat, ?_, ?_⟩
  · rw [List.flatMap_map, List.map_eq_flatMap]
    refine List.flatMap_congr fun c hc => ?_
    have hone := h c hc
    rw [String.utf8EncodeChar]
    rw [hchar c hone, if_pos (by omega)]
  · rw [List.map_map]
    refine ((List.map_congr_left fun c hc => ?_).trans (List.map_id text)).symm
    exact hchar c (h c hc)
/-! ## Hexadecimal -/

def hexDigit (n : Nat) : Nat := if n < 10 then 48 + n else 87 + n

def hexValue (c : Nat) : Option Nat :=
  if 48 ≤ c ∧ c ≤ 57 then some (c - 48)
  else if 97 ≤ c ∧ c ≤ 102 then some (c - 87)
  else if 65 ≤ c ∧ c ≤ 70 then some (c - 55)
  else Option.none

/-- `hexdigest()` of these bytes. -/
def hexdigest (digest : Bytes) : PyStr :=
  digest.flatMap fun b => [hexDigit (b.toNat / 16), hexDigit (b.toNat % 16)]

/-- `bytes.fromhex`, which skips white space before every byte. -/
def fromHex : PyStr → Option Bytes
  | [] => some []
  | [c] => if c = 32 ∨ (9 ≤ c ∧ c ≤ 13) then some [] else Option.none
  | c :: d :: s =>
    if c = 32 ∨ (9 ≤ c ∧ c ≤ 13) then fromHex (d :: s)
    else do
      let hi ← hexValue c
      let lo ← hexValue d
      let rest ← fromHex s
      some (UInt8.ofNat (16 * hi + lo) :: rest)

theorem hexDigit_lt {n : Nat} (h : n < 16) : hexDigit n < 128 := by
  unfold hexDigit
  split <;> omega

theorem hexdigest_ascii (digest : Bytes) : ∀ c ∈ hexdigest digest, c < 128 := by
  intro c hc
  obtain ⟨b, _, hcb⟩ := List.mem_flatMap.mp hc
  have hb := b.toNat_lt
  rcases List.mem_pair.mp hcb with rfl | rfl
  · exact hexDigit_lt (by omega)
  · exact hexDigit_lt (Nat.mod_lt _ (by decide))

/-! ## Signing and sending -/

/-- What `json.loads` makes of a text: a value, a `JSONDecodeError`, or another exception, as for
a text that is nested too deeply. -/
inductive Loaded
  | value (v : PyValue)
  | invalid
  | raised

/-- The libraries: `json.loads`, `json.dumps(payload).encode()`, the same with sorted keys and
short separators, which may raise, and the HMAC-SHA256 of a message under a key. -/
structure Libraries where
  loads : PyStr → Loaded
  dumps : PyDict → Bytes
  dumpsSorted : PyDict → Option Bytes
  mac : Bytes → Bytes → Bytes

/-- `json.loads(body.decode("utf-8"))`. -/
def loadBody (lib : Libraries) (body : Bytes) : Loaded :=
  match decodeUtf8 body with
  | some text => lib.loads text
  | none => .raised

/-- `canonical`. -/
def canonical (lib : Libraries) (payload : PyDict) : Option Bytes := lib.dumpsSorted payload

/-- `sign`: nothing when an exception is raised. -/
def sign (lib : Libraries) (payload : PyDict) (keyHex : PyStr) : Option PyStr := do
  let key ← fromHex keyHex
  let text ← canonical lib payload
  some (hexdigest (lib.mac key text))

theorem sign_ascii {lib : Libraries} {payload : PyDict} {keyHex sig : PyStr}
    (h : sign lib payload keyHex = some sig) : ∀ c ∈ sig, c < 128 := by
  simp only [sign, Option.bind_eq_bind, Option.bind_eq_some_iff, Option.some.injEq] at h
  obtain ⟨key, _, text, _, rfl⟩ := h
  exact hexdigest_ascii _

/-- The payload of `cmd_send`, without the signature. -/
def ctlPayload (op : PyStr) (ip : Option PyStr) (issuedAt : Int) (nonce : PyStr) (ttl : Int) :
    PyDict :=
  let opArgs := match ip with
    | some ip => [(py "ip", PyValue.str ip)]
    | Option.none => []
  [(py "op", .str op), (py "args", .dict opArgs), (py "issued_at", .int issuedAt),
    (py "nonce", .str nonce), (py "ttl", .int ttl)]

/-- The payload with `payload["sig"]`. -/
def signed (payload : PyDict) (sig : PyStr) : PyDict := payload ++ [(py "sig", .str sig)]

/-- `cmd_send`: the body that it publishes. -/
def cmdSend (lib : Libraries) (keyHex op : PyStr) (ip : Option PyStr) (issuedAt : Int)
    (nonce : PyStr) (ttl : Int) : Option Bytes := do
  let payload := ctlPayload op ip issuedAt nonce ttl
  let sig ← sign lib payload keyHex
  some (lib.dumps (signed payload sig))

section Payload

variable (op : PyStr) (ip : Option PyStr) (issuedAt : Int) (nonce : PyStr) (ttl : Int) (sig : PyStr)

theorem signed_pop :
    (signed (ctlPayload op ip issuedAt nonce ttl) sig).get (py "sig") = some (.str sig) ∧
      (signed (ctlPayload op ip issuedAt nonce ttl) sig).without (py "sig") =
        ctlPayload op ip issuedAt nonce ttl := by
  exact ⟨rfl, rfl⟩

theorem ctlPayload_get :
    (ctlPayload op ip issuedAt nonce ttl).get (py "issued_at") = some (.int issuedAt) ∧
      (ctlPayload op ip issuedAt nonce ttl).get (py "ttl") = some (.int ttl) ∧
        (ctlPayload op ip issuedAt nonce ttl).get (py "nonce") = some (.str nonce) :=
  ⟨rfl, rfl, rfl⟩

end Payload

end TrafficAnalyzer
