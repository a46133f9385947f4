import TrafficAnalyzer.Lib.LineTokens

/-!
# String fields of the line protocol

A string stands between double quotes. Inside, a backslash escapes a backslash or a quote;
before any other byte it stands for itself.

* `Enclosed`: the quote after the text is the one that closes the string.
* `readString_enclosed`: an enclosed text is read back, whatever follows its closing quote.
-/

namespace LineProtocol

def quote : UInt8 := 34

/-- The bytes that a backslash escapes inside a string. -/
def isQuotable (c : UInt8) : Bool := c = backslash ∨ c = quote

/-- A byte of the decoded string, and whether a backslash stands before it. -/
inductive StringToken
  | escaped (c : UInt8)
  | literal (c : UInt8)
deriving DecidableEq, Repr

def StringToken.value : StringToken → UInt8
  | escaped c | literal c => c

/-- The text between the quotes, cut into tokens. -/
def stringTokens : Bytes → List StringToken
  | [] => []
  | [c] => [.literal c]
  | c :: d :: s =>
    if c = backslash ∧ isQuotable d then .escaped d :: stringTokens s
    else .literal c :: stringTokens (d :: s)

def decodeString (s : Bytes) : Bytes := (stringTokens s).map StringToken.value

/-- No quote of the text is unescaped, and no backslash is left for the quote after it. -/
structure Enclosed (s : Bytes) : Prop where
  quotes : .literal quote ∉ stringTokens s
  last : (stringTokens s).getLast? ≠ some (.literal backslash)

/-- A string behind its opening quote: the decoded text, and what follows the closing quote. -/
def readString : Bytes → Option (Bytes × Bytes)
  | [] => none
  | [c] => if c = quote then some ([], []) else none
  | c :: d :: s =>
    if c = quote then some ([], d :: s)
    else if c = backslash ∧ isQuotable d then (readString s).map fun r => (d :: r.1, r.2)
    else (readString (d :: s)).map fun r => (c :: r.1, r.2)

theorem stringTokens_escaped {c : UInt8} (hc : isQuotable c = true) (s : Bytes) :
    stringTokens (backslash :: c :: s) = .escaped c :: stringTokens s :=
  if_pos ⟨rfl, hc⟩

theorem stringTokens_backslash {c : UInt8} (hc : isQuotable c = false) (s : Bytes) :
    stringTokens (backslash :: c :: s) = .literal backslash :: stringTokens (c :: s) :=
  if_neg fun h => Bool.false_ne_true (hc.symm.trans h.2)

theorem stringTokens_plain {c : UInt8} (hc : c ≠ backslash) (s : Bytes) :
    stringTokens (c :: s) = .literal c :: stringTokens s := by
  cases s with
  | nil => rfl
  | cons d s => exact if_neg fun h => hc h.1

theorem Enclosed.tail {t : StringToken} {s : Bytes} {u : Bytes} (h : Enclosed u)
    (hu : stringTokens u = t :: stringTokens s) : Enclosed s where
  quotes := fun hq => h.quotes (by rw [hu]; exact List.mem_cons_of_mem t hq)
  last := fun hl => h.last (by rw [hu, List.getLast?_cons, hl]; rfl)

theorem readString_quote (s : Bytes) : readString (quote :: s) = some ([], s) := by
  cases s with
  | nil => rfl
  | cons c s => exact if_pos rfl

/-- An enclosed text is read up to the quote after it. -/
theorem readString_enclosed {s : Bytes} (h : Enclosed s) (rest : Bytes) :
    readString (s ++ quote :: rest) = some (decodeString s, rest) := by
  induction s using stringTokens.induct with
  | case1 => exact readString_quote rest
  | case2 c =>
    have hquote : c ≠ quote := fun he => h.quotes (by simp [stringTokens, he])
    have hback : c ≠ backslash := fun he => h.last (by simp [stringTokens, he])
    rw [List.cons_append, List.nil_append, readString, if_neg hquote, if_neg fun hc => hback hc.1,
      readString_quote]
    rfl
  | case3 c d s hc ih =>
    have htokens : stringTokens (c :: d :: s) = .escaped d :: stringTokens s := if_pos hc
    have hquote : c ≠ quote := by rw [hc.1]; decide
    rw [List.cons_append, List.cons_append, readString, if_neg hquote, if_pos hc,
      ih (h.tail htokens), decodeString, decodeString, htokens]
    rfl
  | case4 c d s hc ih =>
    have htokens : stringTokens (c :: d :: s) = .literal c :: stringTokens (d :: s) := if_neg hc
    have hquote : c ≠ quote := fun he => h.quotes (by rw [htokens, he]; exact .head _)
    rw [List.cons_append, List.cons_append, readString, if_neg hquote, if_neg hc,
      ← List.cons_append, ih (h.tail htokens), decodeString, decodeString, htokens]
    rfl

end LineProtocol
