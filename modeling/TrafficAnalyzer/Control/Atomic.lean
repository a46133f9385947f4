import TrafficAnalyzer.Control.Replay

/-!
# Messages that `verify` does not survive (`scripts/agent_ctl.py`)

`verify` catches the `JSONDecodeError` of `json.loads` and nothing else, and `on_msg`
acknowledges a message only behind it.

1. `raises_iff`: the messages on which an exception leaves `verify`.
2. `verify_atomic_iff`: on the others it drops the message and leaves the cache alone, or takes
   its nonce as the newest one.
3. `latinSig_raises`: a signature with an `é`, and a body that is not UTF-8.
-/

namespace TrafficAnalyzer

/-- A message that `verify` may return: signed, in its window, and with a new nonce that is the
newest one in the cache afterwards. -/
structure Genuine (lib : Libraries) (keyHex : PyStr) (cache cache' : NonceCache) (body : Bytes)
    (now : Int) (msg : PyDict) : Prop where
  signature : ∃ entries sig, loadBody lib body = .value (.dict entries) ∧
    PyDict.get entries (py "sig") = some (.str sig) ∧ msg = PyDict.without entries (py "sig") ∧
      sign lib msg keyHex = some sig
  window : ∃ issued ttl, (msg.get (py "issued_at")).bind PyValue.asInt = some issued ∧
    (msg.get (py "ttl")).bind PyValue.asInt = some ttl ∧ 0 < ttl ∧ now - issued ≤ ttl ∧
      issued - now ≤ CLOCK_SKEW_TOLERANCE
  nonce : ∃ nonce, msg.get (py "nonce") = some (.str nonce) ∧ nonce ∉ cache.seen ∧
    cache'.seen.getLast? = some nonce

/-- `verify` returns `None` and leaves the cache alone, or returns a message as it should. -/
def VerifiesAtomically (lib : Libraries) (keyHex : PyStr) (cache : NonceCache) (body : Bytes)
    (now : Int) : Prop :=
  (∃ reason, verify lib keyHex cache body now = (cache, .dropped reason)) ∨
    ∃ cache' msg, verify lib keyHex cache body now = (cache', .accepted msg) ∧
      Genuine lib keyHex cache cache' body now msg

/-- Nothing is raised that `verify` does not catch: the body is UTF-8, its text is read or is no
JSON, and an object with a signature has an ASCII one and a canonical text. -/
def Harmless (lib : Libraries) (body : Bytes) : Prop :=
  ∃ text, decodeUtf8 body = some text ∧ lib.loads text ≠ .raised ∧
    ∀ entries sig, lib.loads text = .value (.dict entries) →
      PyDict.get entries (py "sig") = some (.str sig) →
        (canonical lib (PyDict.without entries (py "sig"))).isSome ∧ ∀ c ∈ sig, c < 128

/-- A cache that cannot hold a nonce. -/
def NonceCache.Forgetful (cache : NonceCache) : Prop := cache.limit = 0 ∧ cache.seen = []

section Verify

variable {lib : Libraries} {keyHex : PyStr} {cache : NonceCache} {body : Bytes} {now : Int}

theorem harmless_iff : Harmless lib body ↔ loadBody lib body ≠ .raised ∧
    ∀ entries sig, loadBody lib body = .value (.dict entries) →
      PyDict.get entries (py "sig") = some (.str sig) →
        (canonical lib (PyDict.without entries (py "sig"))).isSome ∧ ∀ c ∈ sig, c < 128 := by
  unfold Harmless loadBody
  cases decodeUtf8 body with
  | none => simp
  | some text => simp

theorem compareDigest_some {a b : PyStr} (ha : ∀ c ∈ a, c < 128) (hb : ∀ c ∈ b, c < 128) :
    compareDigest a b = some (decide (a = b)) := by
  have hall : ∀ {s : PyStr}, (∀ c ∈ s, c < 128) → s.all (fun c => decide (c < 128)) = true :=
    fun hs => List.all_eq_true.mpr fun c hc => decide_eq_true (hs c hc)
  exact if_pos ⟨hall ha, hall hb⟩

theorem compareDigest_none {a b : PyStr} (ha : ¬ ∀ c ∈ a, c < 128) : compareDigest a b = none := by
  refine if_neg fun hascii => ha fun c hc => ?_
  exact of_decide_eq_true (List.all_eq_true.mp hascii.1 c hc)

theorem sign_eq {key : Bytes} (hkey : fromHex keyHex = some key) (msg : PyDict) :
    sign lib msg keyHex = (canonical lib msg).map fun text => hexdigest (lib.mac key text) := by
  rw [sign, hkey]
  cases canonical lib msg <;> rfl

/-- A signed object raises exactly when it has no canonical text or its signature is not ASCII. -/
theorem raises_object {key : Bytes} (hkey : fromHex keyHex = some key)
    {entries : List (PyStr × PyValue)} {sig : PyStr}
    (hload : loadBody lib body = .value (.dict entries))
    (hsig : PyDict.get entries (py "sig") = some (.str sig)) :
    raises lib keyHex ⟨body, now⟩ = false ↔
      (canonical lib (PyDict.without entries (py "sig"))).isSome ∧ ∀ c ∈ sig, c < 128 := by
  simp only [raises, checkMessage, hload, hsig, sign_eq hkey]
  cases canonical lib (PyDict.without entries (py "sig")) with
  | none => simp
  | some text =>
    dsimp only [Option.map_some]
    rcases Decidable.em (∀ c ∈ sig, c < 128) with hascii | hascii
    · rw [compareDigest_some hascii (hexdigest_ascii _)]
      refine iff_of_true ?_ ⟨rfl, hascii⟩
      cases decide (sig = hexdigest (lib.mac key text)) with
      | false => rfl
      | true => cases checkTimes (PyDict.without entries (py "sig")) now <;> rfl
    · rw [compareDigest_none hascii]
      exact iff_of_false (fun h => by cases h) fun h => hascii h.2

theorem signature_cases (entries : List (PyStr × PyValue)) :
    (∃ sig, PyDict.get entries (py "sig") = some (.str sig)) ∨
      ∀ sig, PyDict.get entries (py "sig") ≠ some (.str sig) :=
  (Classical.em _).imp_right fun h sig hsig => h ⟨sig, hsig⟩

/-- With a valid key an exception leaves `verify` exactly when the body is not harmless. -/
theorem raises_iff (hkey : (fromHex keyHex).isSome) :
    raises lib keyHex ⟨body, now⟩ = false ↔ Harmless lib body := by
  obtain ⟨key, hkey⟩ := Option.isSome_iff_exists.mp hkey
  rw [harmless_iff]
  cases hload : loadBody lib body with
  | raised => exact iff_of_false (by simp [raises, checkMessage, hload]) fun h => h.1 rfl
  | invalid =>
    exact iff_of_true (by simp [raises, checkMessage, hload])
      ⟨fun he => (by cases he), fun _ _ he => by cases he⟩
  | value v =>
    have hread : Loaded.value v ≠ .raised := fun he => by cases he
    cases v with
    | dict entries =>
      rcases signature_cases entries with ⟨sig, hsig⟩ | hsig
      · rw [raises_object hkey hload hsig]
        refine ⟨fun h => ⟨hread, fun entries' sig' hload' hsig' => ?_⟩,
          fun h => h.2 entries sig rfl hsig⟩
        cases hload'
        rw [hsig] at hsig'
        cases hsig'
        exact h
      · refine iff_of_true ?_ ⟨hread, fun entries' sig hload' hsig' => ?_⟩
        · simp only [raises, checkMessage, hload]
        · cases hload'
          exact absurd hsig' (hsig sig)
    | _ =>
      exact iff_of_true (by simp [raises, checkMessage, hload]) ⟨hread, fun _ _ he => by cases he⟩

theorem checkTimes_none {msg : PyDict} (h : checkTimes msg now = none) :
    ∃ issued ttl, (msg.get (py "issued_at")).bind PyValue.asInt = some issued ∧
      (msg.get (py "ttl")).bind PyValue.asInt = some ttl ∧ 0 < ttl ∧ now - issued ≤ ttl ∧
        issued - now ≤ CLOCK_SKEW_TOLERANCE := by
  unfold checkTimes at h
  split at h
  · next issued ttl hissued httl =>
    split_ifs at h with hpos hage hskew
    exact ⟨issued, ttl, hissued, httl, Int.not_le.mp hpos, Int.not_lt.mp hage, Int.not_lt.mp hskew⟩
  · cases h

/-- What a message that reaches the nonce has passed. -/
theorem checkMessage_passed {msg : PyDict} {sig : PyStr}
    (h : checkMessage lib keyHex body now = .passed msg sig) :
    (∃ entries, loadBody lib body = .value (.dict entries) ∧
      PyDict.get entries (py "sig") = some (.str sig) ∧ msg = PyDict.without entries (py "sig") ∧
        sign lib msg keyHex = some sig) ∧ checkTimes msg now = none := by
  unfold checkMessage at h
  split at h
  · cases h
  · cases h
  · next entries hload =>
    dsimp only at h
    split at h
    · next sig' hsig =>
      split at h
      · cases h
      · next expected hsign =>
        split at h
        · cases h
        · cases h
        · next hdigest =>
          split at h
          · cases h
          · next htimes =>
            cases h
            unfold compareDigest at hdigest
            split at hdigest
            · have heq := of_decide_eq_true (Option.some.inj hdigest)
              exact ⟨⟨entries, hload, hsig, rfl, heq ▸ hsign⟩, htimes⟩
            · cases hdigest
    · cases h
  · cases h

/-- A valid command has passed the checks. -/
theorem validCommand_some {c : Command} (h : validCommand lib keyHex ⟨body, now⟩ = some c) :
    ∃ msg sig, checkMessage lib keyHex body now = .passed msg sig ∧
      msg.get (py "nonce") = some (.str c.nonce) := by
  unfold validCommand at h
  split at h
  · next msg sig hcheck =>
    split at h
    · next nonce hnonce =>
      cases h
      exact ⟨msg, sig, hcheck, hnonce⟩
    · cases h
  · cases h

theorem accept_seen (cache : NonceCache) (nonce : PyStr) :
    cache.accept nonce = (cache, false) ∧ nonce ∈ cache.seen ∨
      nonce ∉ cache.seen ∧ (cache.accept nonce).2 = true ∧
        ((cache.accept nonce).1.seen.getLast? = some nonce ↔ ¬ cache.Forgetful) := by
  unfold NonceCache.accept NonceCache.Forgetful
  split
  · next hseen => exact .inl ⟨rfl, hseen⟩
  · next hnew =>
    refine .inr ⟨hnew, ?_⟩
    dsimp only
    split
    · next hfull =>
      refine ⟨rfl, ?_⟩
      cases hseen : cache.seen with
      | nil =>
        rw [hseen] at hfull
        exact iff_of_false nofun fun h => h ⟨Nat.lt_one_iff.mp hfull, rfl⟩
      | cons x xs => exact iff_of_true List.getLast?_concat nofun
    · next hroom =>
      refine ⟨rfl, iff_of_true List.getLast?_concat fun hf => hroom ?_⟩
      rw [hf.1, hf.2]
      exact Nat.one_pos

/-- A message that reaches the nonce check is accepted as it should be, or dropped without a
trace, unless the cache cannot hold its nonce. -/
theorem verify_valid {c : Command} (h : validCommand lib keyHex ⟨body, now⟩ = some c) :
    VerifiesAtomically lib keyHex cache body now ↔ ¬ cache.Forgetful := by
  obtain ⟨msg, sig, hcheck, hnonce⟩ := validCommand_some h
  obtain ⟨hsignature, htimes⟩ := checkMessage_passed hcheck
  have hverify : verify lib keyHex cache body now = ((cache.accept c.nonce).1,
      if (cache.accept c.nonce).2 then .accepted msg else .dropped .nonce) := by
    simp only [verify, hcheck, hnonce]
  rcases accept_seen cache c.nonce with ⟨hold, hseen⟩ | ⟨hnew, hsnd, hlast⟩
  · rw [hold] at hverify
    refine iff_of_true (.inl ⟨.nonce, hverify⟩) fun hf => ?_
    rw [hf.2] at hseen
    cases hseen
  · rw [hsnd, if_pos rfl] at hverify
    rw [← hlast]
    constructor
    · rintro (⟨reason, hdrop⟩ | ⟨cache', msg', haccept, hgenuine⟩)
      · cases congrArg Prod.snd (hdrop.symm.trans hverify)
      · rw [hverify] at haccept
        cases haccept
        obtain ⟨nonce, hnonce', -, hnewest⟩ := hgenuine.nonce
        rw [hnonce] at hnonce'
        cases hnonce'
        exact hnewest
    · intro hnewest
      obtain ⟨entries, hload, hsig, hmsg, hsign⟩ := hsignature
      exact .inr ⟨_, msg, hverify, ⟨entries, sig, hload, hsig, hmsg, hsign⟩,
        checkTimes_none htimes, c.nonce, hnonce, hnew, hnewest⟩

/-- An exception is no way to return. -/
theorem raises_not_atomic (h : ¬ raises lib keyHex ⟨body, now⟩ = false) :
    ¬ VerifiesAtomically lib keyHex cache body now := by
  obtain ⟨-, hv⟩ | ⟨hraise, -⟩ | ⟨hraise, -⟩ := verify_cases lib keyHex cache ⟨body, now⟩
  · rintro (⟨reason, hdrop⟩ | ⟨cache', msg, haccept, -⟩)
    · cases congrArg Prod.snd (hdrop.symm.trans hv)
    · cases congrArg Prod.snd (haccept.symm.trans hv)
  · exact absurd hraise h
  · exact absurd hraise h

/-- With a valid key `verify` works as it should exactly when the libraries raise nothing that
it does not catch, and the cache can hold the nonce of a valid message. -/
theorem verify_atomic_iff (hkey : (fromHex keyHex).isSome) :
    VerifiesAtomically lib keyHex cache body now ↔
      Harmless lib body ∧
        (cache.Forgetful → validCommand lib keyHex ⟨body, now⟩ = none) := by
  have hsafe : raises lib keyHex ⟨body, now⟩ = false ↔ Harmless lib body := raises_iff hkey
  rw [← hsafe]
  obtain ⟨hraise, hv⟩ | ⟨hraise, hc, reason, hv⟩ | ⟨hraise, c, msg, hc, hv⟩ :=
    verify_cases lib keyHex cache ⟨body, now⟩
  · have hbad : ¬ raises lib keyHex ⟨body, now⟩ = false := by
      rw [hraise]
      nofun
    exact iff_of_false (raises_not_atomic hbad) fun h => hbad h.1
  · exact iff_of_true (.inl ⟨reason, hv⟩) ⟨hraise, fun _ => hc⟩
  · rw [verify_valid hc, hc]
    exact ⟨fun h => ⟨hraise, fun hf => absurd hf h⟩, fun h hf => by cases h.2 hf⟩

end Verify

/-- Whatever the message authentication code, the first of the numbered commands is accepted as
it should be. -/
theorem verify_atomic_iff_numbered :
    ¬ ∃ mac : Bytes → Bytes → Bytes, ¬ VerifiesAtomically (exampleLib mac) exampleKey .new
      (exampleDelivery mac 0).body 1700000000 := by
  rintro ⟨mac, h⟩
  have hharmless := (raises_iff (by decide)).mp (exampleDelivery_valid mac 0).2
  exact h ((verify_atomic_iff (by decide)).mpr
    ⟨hharmless, fun hforgetful => absurd hforgetful.1 (by decide)⟩)

/-! ## Two messages -/

/-- The object `{"sig":"é"}` in UTF-8. -/
def latinBody : Bytes := ascii "\x7b\"sig\":\"" ++ [195, 169] ++ ascii "\"\x7d"

def latinText : PyStr := py "\x7b\"sig\":\"é\"\x7d"

/-- The libraries as they behave on this object, with any message authentication code. -/
def latinLib (mac : Bytes → Bytes → Bytes) : Libraries where
  loads text :=
    if text = latinText then .value (.dict [(py "sig", .str [233])])
    else .invalid
  dumps _ := []
  dumpsSorted d := if d.length = 0 then some (ascii "\x7b\x7d") else none
  mac := mac

theorem latinBody_decodes : decodeUtf8 latinBody = some latinText :=
  decodeUtf8_some_iff.mpr ⟨"\x7b\"sig\":\"é\"\x7d".toList, by decide, rfl⟩

/-- A single byte 255 is no UTF-8. -/
theorem decodeUtf8_255 : decodeUtf8 [255] = none := by
  have hvalid : ¬ ([255] : Bytes).toByteArray.IsValidUTF8 := fun h =>
    absurd (h.isUTF8FirstByte_getElem_zero (by decide)) (by decide)
  rw [decodeUtf8, String.fromUTF8?, dif_neg hvalid, Option.map_none]

theorem latinSig_raises :
    ¬ ∃ mac : Bytes → Bytes → Bytes,
      VerifiesAtomically (latinLib mac) exampleKey .new latinBody 1700000000 ∨
        VerifiesAtomically (latinLib mac) exampleKey .new [255] 1700000000 := by
  have hascii : ¬ ∀ c ∈ ([233] : PyStr), c < 128 := by decide
  rintro ⟨mac, hlatin | hbyte⟩
  · refine raises_not_atomic (fun hraise => ?_) hlatin
    obtain ⟨text, htext, -, hsigned⟩ := (raises_iff (by decide)).mp hraise
    cases latinBody_decodes.symm.trans htext
    have hload : (latinLib mac).loads latinText = .value (.dict [(py "sig", .str [233])]) := by
      simp [latinLib]
    exact hascii (hsigned _ [233] hload rfl).2
  · refine raises_not_atomic (fun hraise => ?_) hbyte
    obtain ⟨text, htext, -⟩ := (raises_iff (by decide)).mp hraise
    cases decodeUtf8_255.symm.trans htext

end TrafficAnalyzer
