import TrafficAnalyzer.Lib.CText
import TrafficAnalyzer.Lib.Lts
import TrafficAnalyzer.Agent.Frames

/-!
# HOME_NET (`analyzer_add_home_cidr`, `is_home_ip`)

The list of home networks is a list of addresses and masks in network byte order. The
source reads the prefix length with `atoi` from a buffer of 64 bytes, which accepts texts
that are no prefix length. `parseCidr` says what a CIDR text denotes.

1. `masked_iff`: comparing under the mask of `p` bits is sharing the first `p` bits.
2. `addsExactly_iff`: a call accepts exactly the CIDR texts, and its entry matches exactly
   their addresses, when the text after the slash is read as what it says (`ReadsWell`).
3. `homeNet_exact_iff`: over any sequence of calls, and what HOME_NET then matches.
4. `malformed_prefix_matches_all`: a malformed prefix makes every address a home address.
-/

namespace TrafficAnalyzer

open CText LineProtocol

/-! ## The source -/

/-- One octet of a dotted quad: up to three digits, without leading zeros, at most 255. -/
def octet (s : Bytes) : Option UInt8 :=
  if isDigits s ∧ s.length ≤ 3 ∧ digitsValue s ≤ 255 ∧ (s.head? = some 48 → s.length = 1) then
    some (UInt8.ofNat (digitsValue s))
  else none

/-- `inet_pton(AF_INET, ...)`: the `s_addr` of a dotted quad. -/
def inetPton (s : Bytes) : Option UInt32 :=
  match s.splitOn 46 with
  | [a, b, c, d] => do some (load32 (← octet a) (← octet b) (← octet c) (← octet d))
  | _ => none

/-- `htonl` on a little-endian host. -/
def htonl (x : UInt32) : UInt32 :=
  x >>> 24 ||| (x >>> 8 &&& (0xFF00 : UInt32)) ||| (x <<< 8 &&& (0xFF0000 : UInt32)) ||| x <<< 24

/-- `mask_be` of a prefix length. -/
def maskBe (prefixLen : Nat) : UInt32 :=
  htonl (if prefixLen = 0 then 0 else 0xFFFFFFFF <<< UInt32.ofNat (32 - prefixLen))

/-- `sizeof(buf)` in `analyzer_add_home_cidr`. -/
def CIDR_BUF : Nat := 64

/-- `analyzer_add_home_cidr`: the return value and the list. The pointer may be null, and
the text is what comes before its NUL. The printed copy of the text is not represented. -/
def analyzerAddHomeCidr (home : Slots HomeCidr MAX_HOME_CIDR) (cidr : Option Bytes) :
    Option (Int × Slots HomeCidr MAX_HOME_CIDR) :=
  match cidr with
  | none => some (-1, home)
  | some cidr =>
    if cidr = [] then some (-1, home)
    else if MAX_HOME_CIDR ≤ home.count then some (-1, home)
    else
      let buf := cidr.take (CIDR_BUF - 1)
      let (buf, slash) := splitFirst 47 buf
      let prefixLen : Int := match slash with
        | some text => atoi text
        | none => 32
      if prefixLen < 0 ∨ 32 < prefixLen then some (-1, home)
      else
        match inetPton buf with
        | none => some (-1, home)
        | some a => do
          let mask := maskBe prefixLen.toNat
          let home ← home.push? ⟨a &&& mask, mask⟩
          some (0, home)

/-- The list under calls of `analyzer_add_home_cidr`, empty at the start of the program. -/
def homeLts : Lts (Slots HomeCidr MAX_HOME_CIDR) Bytes where
  init home := home = .empty
  step home cidr := (analyzerAddHomeCidr home (some cidr)).map Prod.snd

/-! ## What a CIDR text denotes -/

/-- The decimal prefix lengths. -/
def prefixLength (s : Bytes) : Option Nat :=
  if isDigits s ∧ digitsValue s ≤ 32 then some (digitsValue s) else none

/-- A dotted quad, optionally followed by a slash and a decimal prefix length: the address
and the prefix length, 32 when there is none. -/
def parseCidr (s : Bytes) : Option (UInt32 × Nat) :=
  match splitFirst 47 s with
  | (quad, none) => (inetPton quad).map (·, 32)
  | (quad, some text) => do some (← inetPton quad, ← prefixLength text)

/-- Bit `i` of an address in the order in which its octets are written, from the most
significant bit of the first octet. -/
def addrBit (a : UInt32) (i : Nat) : Bool := a.toNat.testBit (8 * (i / 8) + (7 - i % 8))

/-- The first `p` bits of two addresses agree. -/
def SharesPrefix (a b : UInt32) (p : Nat) : Prop := ∀ i < p, addrBit a i = addrBit b i

/-! ## Masks -/

/-- Where bit `i` of the written order is in memory. -/
def bitIndex (i : Nat) : Nat := 8 * (i / 8) + (7 - i % 8)

theorem bitIndex_lt {i : Nat} (h : i < 32) : bitIndex i < 32 := by
  unfold bitIndex
  omega

theorem bitIndex_bitIndex {i : Nat} : bitIndex (bitIndex i) = i := by
  unfold bitIndex
  omega

theorem addrBit_maskBe {p i : Nat} (hp : p ≤ 32) (hi : i < 32) :
    addrBit (maskBe p) i = decide (i < p) := by
  have h : ∀ p < 33, ∀ i < 32, addrBit (maskBe p) i = decide (i < p) := by decide +kernel
  exact h p (Nat.lt_succ_of_le hp) i hi

theorem addr_ext {a b : UInt32} (h : ∀ i < 32, addrBit a i = addrBit b i) : a = b := by
  refine UInt32.toNat_inj.mp (Nat.eq_of_testBit_eq fun j => ?_)
  rcases Nat.lt_or_ge j 32 with hj | hj
  · have hbit := h (bitIndex j) (bitIndex_lt hj)
    rw [addrBit, addrBit, ← bitIndex, bitIndex_bitIndex] at hbit
    exact hbit
  · have hpow : 2 ^ 32 ≤ 2 ^ j := Nat.pow_le_pow_right (by decide) hj
    rw [Nat.testBit_lt_two_pow (Nat.lt_of_lt_of_le a.toNat_lt hpow),
      Nat.testBit_lt_two_pow (Nat.lt_of_lt_of_le b.toNat_lt hpow)]

theorem addrBit_and (a b : UInt32) (i : Nat) : addrBit (a &&& b) i = (addrBit a i && addrBit b i) := by
  simp [addrBit, UInt32.toNat_and, Nat.testBit_and]

/-- Comparing under the mask is comparing the first `p` bits. -/
theorem masked_iff {a b : UInt32} {p : Nat} (hp : p ≤ 32) :
    a &&& maskBe p = b &&& maskBe p ↔ SharesPrefix a b p := by
  constructor
  · intro h i hi
    have hbit := congrArg (addrBit · i) h
    simpa [addrBit_and, addrBit_maskBe hp (Nat.lt_of_lt_of_le hi hp), hi] using hbit
  · intro h
    refine addr_ext fun i hi => ?_
    rw [addrBit_and, addrBit_and, addrBit_maskBe hp hi]
    rcases Nat.lt_or_ge i p with hlt | hge
    · rw [h i hlt]
    · simp [Nat.not_lt.mpr hge]

/-- The address with bit `i` changed. -/
def flipBit (a : UInt32) (i : Nat) : UInt32 := a ^^^ UInt32.ofNat (2 ^ bitIndex i)

theorem addrBit_flipBit {a : UInt32} {i j : Nat} (hi : i < 32) :
    addrBit (flipBit a i) j = (addrBit a j ^^ decide (j = i)) := by
  have hsmall : 2 ^ bitIndex i < 2 ^ 32 := Nat.pow_lt_pow_right (by decide) (bitIndex_lt hi)
  have hindex : bitIndex i = bitIndex j ↔ j = i := by
    constructor
    · intro h
      rw [← bitIndex_bitIndex (i := j), ← h, bitIndex_bitIndex]
    · rintro rfl
      rfl
  rw [addrBit, flipBit, UInt32.toNat_xor, Nat.testBit_xor, UInt32.toNat_ofNat_of_lt' hsmall,
    ← bitIndex, Nat.testBit_two_pow]
  simp only [hindex]
  rfl

/-- Two prefix lengths that match the same addresses are equal. -/
theorem sharesPrefix_inj {a : UInt32} {p q : Nat} (hp : p ≤ 32) (hq : q ≤ 32)
    (h : ∀ b, SharesPrefix b a p ↔ SharesPrefix b a q) : p = q := by
  rcases Nat.lt_trichotomy p q with hlt | he | hgt
  · exact absurd h (sharesPrefix_differ hlt hq)
  · exact he
  · exact absurd (fun b => (h b).symm) (sharesPrefix_differ hgt hp)
where
  /-- Flipping the last bit of the longer prefix is seen by that one only. -/
  sharesPrefix_differ {p q : Nat} (hlt : p < q) (hq : q ≤ 32) :
      ¬ ∀ b, SharesPrefix b a p ↔ SharesPrefix b a q := by
    intro h
    have hi : q - 1 < 32 := by omega
    have hshort : SharesPrefix (flipBit a (q - 1)) a p := fun j hj => by
      rw [addrBit_flipBit hi, decide_eq_false (by omega), Bool.xor_false]
    have hlong := (h _).mp hshort (q - 1) (by omega)
    rw [addrBit_flipBit hi] at hlong
    simp at hlong

/-! ## The buffer -/

theorem octet_length {s : Bytes} {b : UInt8} (h : octet s = some b) : s.length ≤ 3 := by
  unfold octet at h
  split at h
  · next hok => exact hok.2.1
  · cases h

/-- A dotted quad has 15 bytes at most. -/
theorem inetPton_length {s : Bytes} {a : UInt32} (h : inetPton s = some a) : s.length ≤ 15 := by
  unfold inetPton at h
  split at h
  · next w x y z hparts =>
    simp only [Option.bind_eq_bind, Option.bind_eq_some_iff] at h
    obtain ⟨_, hw, _, hx, _, hy, _, hz, _⟩ := h
    have hs : s = [46].intercalate [w, x, y, z] := by
      rw [← hparts]
      exact (List.intercalate_splitOn 46).symm
    have := octet_length hw
    have := octet_length hx
    have := octet_length hy
    have := octet_length hz
    rw [hs]
    simp only [List.intercalate_cons_cons, List.intercalate_singleton, List.length_append,
      List.length_singleton]
    omega
  · cases h

/-- The cut to 63 bytes makes no address and breaks none. -/
theorem inetPton_take (s : Bytes) : inetPton (s.take 63) = inetPton s := by
  rcases Nat.lt_or_ge 63 s.length with hlong | hfits
  · have hnone : ∀ t : Bytes, 63 ≤ t.length → inetPton t = none := fun t ht => by
      cases h : inetPton t with
      | none => rfl
      | some a => exact absurd (inetPton_length h) (by omega)
    rw [hnone s (Nat.le_of_lt hlong), hnone _ (by rw [List.length_take]; omega)]
  · rw [List.take_of_length_le hfits]

/-- The prefix length that `atoi` reads from a text. -/
def readPrefix (text : Bytes) : Option Nat :=
  if atoi text < 0 ∨ 32 < atoi text then none else some (atoi text).toNat

/-- What a call reads from its text: the address, and the prefix length from the part of
the text after the slash that is in the buffer. -/
def readCidr (s : Bytes) : Option (UInt32 × Nat) :=
  match splitFirst 47 s with
  | (quad, none) => (inetPton quad).map (·, 32)
  | (quad, some text) => do some (← inetPton quad, ← readPrefix (text.take (62 - quad.length)))

theorem readCidr_buffer (s : Bytes) :
    readCidr s =
      (match splitFirst 47 (s.take 63) with
      | (quad, none) => (inetPton quad).map (·, 32)
      | (quad, some text) => do some (← inetPton quad, ← readPrefix text)) := by
  rcases splitFirst_cases 47 s with ⟨hslash, hs⟩ | ⟨quad, text, hquad, rfl, hs⟩
  · rw [readCidr, hs, splitFirst_absent fun h => hslash (List.mem_of_mem_take h)]
    simp only [inetPton_take]
  · rw [readCidr, hs]
    rcases Nat.lt_or_ge quad.length 63 with hlt | hge
    · have hcut : (quad ++ 47 :: text).take 63 = quad ++ 47 :: text.take (62 - quad.length) := by
        obtain ⟨k, hk⟩ : ∃ k, 63 = quad.length + (k + 1) := ⟨62 - quad.length, by omega⟩
        rw [hk, List.take_length_add_append, List.take_succ_cons]
        congr 3
        omega
      rw [hcut, splitFirst_append hquad]
    · have hcut : (quad ++ 47 :: text).take 63 = quad.take 63 := List.take_append_of_le_length hge
      rw [hcut, splitFirst_absent fun h => hquad (List.mem_of_mem_take h)]
      have hnone : inetPton quad = none := by
        cases h : inetPton quad with
        | none => rfl
        | some a => exact absurd (inetPton_length h) (by omega)
      simp [inetPton_take, hnone]

/-! ## One call -/

/-- The text after the slash is read as what it says: a decimal prefix length lies in the
buffer or is 0, and any other text starts, in the buffer, with a number that `atoi` does not
take for one. Texts whose address is no dotted quad are refused whatever follows. -/
def ReadsWell (s : Bytes) : Prop :=
  match splitFirst 47 s with
  | (_, none) => True
  | (quad, some text) =>
    let number := leadingInt (text.take (62 - quad.length))
    inetPton quad = none ∨
      if isDigits text ∧ digitsValue text ≤ 32 then
        quad.length + 1 + text.length ≤ 63 ∨ digitsValue text = 0
      else 2 ^ 63 ≤ number ∨ (-2 ^ 63 ≤ number ∧ 32 < number % 2 ^ 32)

theorem isDigits_take {s : Bytes} (h : isDigits s = true) {n : Nat} (hn : 0 < n) :
    isDigits (s.take n) = true := by
  simp only [isDigits, ne_eq, Bool.decide_and, Bool.and_eq_true, decide_eq_true_eq,
    List.all_eq_true] at h ⊢
  refine ⟨fun hnil => h.1 ?_, fun c hc => h.2 c (List.mem_of_mem_take hc)⟩
  rcases List.take_eq_nil_iff.mp hnil with hzero | hnil
  · exact absurd hzero (Nat.ne_of_gt hn)
  · exact hnil

/-- `atoi` reads the buffered part of a text as the prefix length that the text is. -/
theorem readPrefix_iff {text : Bytes} {n : Nat} (hn : 0 < n) :
    readPrefix (text.take n) = prefixLength text ↔
      if isDigits text ∧ digitsValue text ≤ 32 then text.length ≤ n ∨ digitsValue text = 0
      else
        2 ^ 63 ≤ leadingInt (text.take n) ∨
          (-2 ^ 63 ≤ leadingInt (text.take n) ∧ 32 < leadingInt (text.take n) % 2 ^ 32) := by
  unfold readPrefix prefixLength
  rcases Decidable.em (isDigits text = true ∧ digitsValue text ≤ 32) with hlen | hlen
  · obtain ⟨hle, heq⟩ := digitsValue_take (s := text) n
    have hread := atoi_digits (isDigits_take hlen.1 hn) (by omega)
    have hrange : ¬ (atoi (text.take n) < 0 ∨ 32 < atoi (text.take n)) := by omega
    rw [if_neg hrange, if_pos hlen, if_pos hlen, hread, Int.toNat_natCast, Option.some.injEq]
    exact heq
  · have hrange := atoi_range (s := text.take n) (k := 32) (by decide)
    rw [if_neg hlen, if_neg hlen]
    split
    · next hbad => exact iff_of_true rfl (by omega)
    · next hgood => exact iff_of_false (by simp) (by omega)

theorem readCidr_iff (s : Bytes) : readCidr s = parseCidr s ↔ ReadsWell s := by
  unfold readCidr parseCidr ReadsWell
  rcases splitFirst_cases 47 s with ⟨_, hs⟩ | ⟨quad, text, _, _, hs⟩
  · simp only [hs]
  · simp only [hs]
    cases hquad : inetPton quad with
    | none => simp
    | some a =>
      have hlen := inetPton_length hquad
      have hfits : quad.length + 1 + text.length ≤ 63 ↔ text.length ≤ 62 - quad.length := by omega
      have hinj : ∀ o o' : Option Nat,
          (o.bind fun p => some (a, p)) = (o'.bind fun p => some (a, p)) ↔ o = o' := by
        rintro (_ | p) (_ | q) <;> simp
      simp only [Option.bind_eq_bind, Option.bind_some, hinj, reduceCtorEq, false_or, hfits]
      exact readPrefix_iff (by omega)

/-- A call in terms of what it reads: a text that it cannot read and a full list leave the
list as it is. -/
theorem analyzerAddHomeCidr_eq (home : Slots HomeCidr MAX_HOME_CIDR) (s : Bytes) :
    analyzerAddHomeCidr home (some s) = some (
      if MAX_HOME_CIDR ≤ home.count then (-1, home)
      else
        match readCidr s with
        | none => (-1, home)
        | some (a, p) => (0, home.pushD ⟨a &&& maskBe p, maskBe p⟩)) := by
  rcases Decidable.em (s = []) with rfl | hne
  · have hnil : readCidr [] = none := by decide
    simp [analyzerAddHomeCidr, hnil]
  unfold analyzerAddHomeCidr
  simp only [hne, ↓reduceIte]
  split
  · rfl
  next hroom =>
  have hpush : ∀ hc, home.push? hc = some (home.pushD hc) := fun hc => by
    obtain ⟨u, hu, _⟩ := home.push?_of_lt hc (Nat.lt_of_not_le hroom)
    simp [Slots.pushD, hu]
  rw [readCidr_buffer]
  simp only [CIDR_BUF, Nat.reduceSub, hpush]
  rcases splitFirst 47 (s.take 63) with ⟨quad, _ | text⟩
  · cases hquad : inetPton quad <;> simp [hquad]
  · cases hquad : inetPton quad with
    | none => simp [hquad]
    | some a =>
      simp only [readPrefix, Option.bind_eq_bind, Option.bind_some]
      split <;> simp [hquad]

theorem readPrefix_le {text : Bytes} {p : Nat} (h : readPrefix text = some p) : p ≤ 32 := by
  unfold readPrefix at h
  split at h
  · cases h
  · obtain rfl := Option.some.inj h
    omega

theorem prefixLength_le {text : Bytes} {p : Nat} (h : prefixLength text = some p) : p ≤ 32 := by
  unfold prefixLength at h
  split at h
  · next hlen => exact Option.some.inj h ▸ hlen.2
  · cases h

/-- The code and the CIDR grammar take the address from the same text, and never a prefix
length above 32. -/
theorem readCidr_parseCidr {s : Bytes} {a b : UInt32} {p q : Nat} (hr : readCidr s = some (a, p))
    (hp : parseCidr s = some (b, q)) : a = b ∧ p ≤ 32 ∧ q ≤ 32 := by
  rcases hs : splitFirst 47 s with ⟨quad, _ | text⟩
  · simp only [readCidr, parseCidr, hs, Option.map_eq_some_iff, Prod.mk.injEq] at hr hp
    obtain ⟨_, ha, rfl, rfl⟩ := hr
    obtain ⟨_, hb, rfl, rfl⟩ := hp
    exact ⟨Option.some.inj (ha.symm.trans hb), Nat.le_refl _, Nat.le_refl _⟩
  · simp only [readCidr, parseCidr, hs, Option.bind_eq_bind, Option.bind_eq_some_iff,
      Option.some.injEq, Prod.mk.injEq] at hr hp
    obtain ⟨_, ha, _, hlen, rfl, rfl⟩ := hr
    obtain ⟨_, hb, _, hlen', rfl, rfl⟩ := hp
    exact ⟨Option.some.inj (ha.symm.trans hb), readPrefix_le hlen, prefixLength_le hlen'⟩

/-- The call does what the text says: it returns 0 exactly when the list has room and the
text is a CIDR; otherwise it returns -1 and leaves the list alone. An accepted text adds one
entry, which matches exactly the addresses of its network. -/
def AddsExactly (home : Slots HomeCidr MAX_HOME_CIDR) (s : Bytes) : Prop :=
  ∃ ret home', analyzerAddHomeCidr home (some s) = some (ret, home') ∧
    (ret = 0 ↔ home.count < 8 ∧ (parseCidr s).isSome) ∧
    (ret ≠ 0 → ret = -1 ∧ home' = home) ∧
    (ret = 0 → ∀ a p, parseCidr s = some (a, p) →
      ∃ hc : HomeCidr, home'.used = home.used ++ [hc] ∧
        ∀ src : UInt32, src &&& hc.maskBe = hc.addrBe ↔ SharesPrefix src a p)

theorem addsExactly_iff (home : Slots HomeCidr MAX_HOME_CIDR) (s : Bytes) :
    AddsExactly home s ↔ home.count = 8 ∨ ReadsWell s := by
  have hfits : home.count ≤ 8 := home.count_le
  unfold AddsExactly
  simp only [analyzerAddHomeCidr_eq, Option.some.injEq, ← readCidr_iff]
  rcases Nat.lt_or_ge home.count 8 with hroom | hfull
  · have hle : ¬ MAX_HOME_CIDR ≤ home.count := Nat.not_le.mpr hroom
    rw [if_neg hle]
    have hnot : home.count ≠ 8 := Nat.ne_of_lt hroom
    cases hr : readCidr s with
    | none =>
      cases hp : parseCidr s with
      | none => exact iff_of_true ⟨-1, home, rfl, by simp, fun _ => ⟨rfl, rfl⟩, by simp⟩ (.inr rfl)
      | some bq =>
        -- a CIDR is refused
        refine iff_of_false ?_ (by simp [hnot])
        rintro ⟨_, _, ⟨rfl, rfl⟩, hret, _⟩
        exact absurd (hret.mpr ⟨hroom, rfl⟩) (by decide)
    | some ap =>
      obtain ⟨a, p⟩ := ap
      cases hp : parseCidr s with
      | none =>
        -- a text that is no CIDR is accepted
        refine iff_of_false ?_ (by simp [hnot])
        rintro ⟨_, _, ⟨rfl, rfl⟩, hret, _⟩
        exact absurd (hret.mp rfl).2 (by simp)
      | some bq =>
        obtain ⟨b, q⟩ := bq
        obtain ⟨rfl, hple, hqle⟩ := readCidr_parseCidr hr hp
        have hused : ∀ hc, (home.pushD hc).used = home.used ++ [hc] := fun hc =>
          (Slots.used_pushD home hc).trans (if_pos hroom)
        constructor
        · rintro ⟨_, _, ⟨rfl, rfl⟩, _, _, hnew⟩
          obtain ⟨hc, hentry, hmatch⟩ := hnew rfl a q rfl
          obtain rfl := List.singleton_inj.mp (List.append_cancel_left ((hused _).symm.trans hentry))
          -- two prefix lengths that match the same addresses are equal
          have he : p = q := sharesPrefix_inj hple hqle fun src =>
            (masked_iff hple).symm.trans (hmatch src)
          exact .inr (by rw [he])
        · rintro (hfull | he)
          · exact absurd hfull hnot
          · obtain ⟨_, rfl⟩ := Prod.mk.inj (Option.some.inj he)
            refine ⟨0, _, rfl, by simp [hroom], by simp, fun _ a' p' h => ?_⟩
            obtain ⟨rfl, rfl⟩ := Prod.mk.inj (Option.some.inj h)
            exact ⟨_, hused _, fun src => masked_iff hple⟩
  · have hcount : home.count = 8 := Nat.le_antisymm hfits hfull
    rw [if_pos (show MAX_HOME_CIDR ≤ home.count from hfull)]
    refine iff_of_true ⟨-1, home, rfl, ?_, fun _ => ⟨rfl, rfl⟩, ?_⟩ (.inl hcount)
    · simp [hcount]
    · simp

/-! ## Runs -/

theorem isHomeIp_any (home : Slots HomeCidr MAX_HOME_CIDR) (src : UInt32) :
    isHomeIp home src = some (home.used.any fun hc => src &&& hc.maskBe = hc.addrBe) := by
  obtain ⟨r, hr, hsome⟩ := home.scan_isSome fun hc => src &&& hc.maskBe = hc.addrBe
  simp [isHomeIp, hr, hsome]

/-- `src` is in a network that some call of `tr` accepts. -/
def InAccepted (tr : List (Lts.Step (Slots HomeCidr MAX_HOME_CIDR) Bytes)) (src : UInt32) : Prop :=
  ∃ x ∈ tr, x.before.count < 8 ∧
    ∃ a p, parseCidr x.label = some (a, p) ∧ SharesPrefix src a p

theorem inAccepted_snoc {tr : List (Lts.Step (Slots HomeCidr MAX_HOME_CIDR) Bytes)}
    {x : Lts.Step (Slots HomeCidr MAX_HOME_CIDR) Bytes} {src : UInt32} :
    InAccepted (tr ++ [x]) src ↔ InAccepted tr src ∨ InAccepted [x] src := by
  simp [InAccepted, or_and_right, exists_or]

/-- What an exact call adds to the home addresses. -/
theorem addsExactly_home {home home' : Slots HomeCidr MAX_HOME_CIDR} {s : Bytes}
    (h : AddsExactly home s) (hstep : homeLts.step home s = some home') (src : UInt32) :
    (home'.used.any fun hc => src &&& hc.maskBe = hc.addrBe) = true ↔
      (home.used.any fun hc => src &&& hc.maskBe = hc.addrBe) = true ∨
        InAccepted [⟨home, s, home'⟩] src := by
  obtain ⟨ret, home1, hcall, hret, hfail, hnew⟩ := h
  obtain rfl : home1 = home' := by simpa [homeLts, hcall] using hstep
  simp only [InAccepted, List.mem_singleton, exists_eq_left]
  rcases Decidable.em (ret = 0) with hzero | hnz
  · obtain ⟨hroom, hsome⟩ := hret.mp hzero
    obtain ⟨⟨a, p⟩, hp⟩ := Option.isSome_iff_exists.mp hsome
    obtain ⟨hc, hused, hmatch⟩ := hnew hzero a p hp
    simp [hused, hp, hroom, hmatch]
  · obtain ⟨_, rfl⟩ := hfail hnz
    have hnot : ¬ (home1.count < 8 ∧ (parseCidr s).isSome) := fun h => hnz (hret.mpr h)
    refine (or_iff_left ?_).symm
    rintro ⟨hroom, a, p, hp, _⟩
    exact hnot ⟨hroom, by rw [hp]; rfl⟩

/-- HOME_NET over any sequence of calls: a call does what its text says exactly when the
list is full or the text is read as what it says, and when all calls do, an address is a
home address if and only if it is in one of the accepted networks. -/
theorem homeNet_exact_iff {home : Slots HomeCidr MAX_HOME_CIDR}
    {tr : List (Lts.Step (Slots HomeCidr MAX_HOME_CIDR) Bytes)}
    (hrun : Lts.Run homeLts .empty tr home) :
    (∀ x ∈ tr, AddsExactly x.before x.label ↔ x.before.count = 8 ∨ ReadsWell x.label) ∧
      ((∀ x ∈ tr, x.before.count = 8 ∨ ReadsWell x.label) →
        ∀ src, ∃ b, isHomeIp home src = some b ∧ (b = true ↔ InAccepted tr src)) := by
  refine ⟨fun x _ => addsExactly_iff x.before x.label, fun hwell src => ?_⟩
  refine ⟨_, isHomeIp_any home src, ?_⟩
  induction hrun with
  | nil => simp [InAccepted, Slots.empty]
  | @snoc tr t u s _ hstep ih =>
    have hcall := (addsExactly_iff t s).mpr (hwell ⟨t, s, u⟩ (by simp))
    rw [addsExactly_home hcall hstep, inAccepted_snoc,
      ih fun x hx => hwell x (List.mem_append_left _ hx)]

/-- The calls of `test_home_net`: two malformed networks, an empty text and 10.0.0.0/8. -/
theorem homeNet_exact_iff_private :
    ∃ home tr, Lts.Run homeLts .empty tr home ∧
      isHomeIp home 0x0909090A = some true ∧ isHomeIp home 0x0909090B = some false ∧
      ∀ src, ∃ b, isHomeIp home src = some b ∧ (b = true ↔ InAccepted tr src) := by
  have hok : (homeLts.exec .empty [ascii "300.1.1.1/8", ascii "10.0.0.0/33", [],
      ascii "10.0.0.0/8"]).map (fun r => (r.1.all (fun x => readCidr x.label = parseCidr x.label),
        isHomeIp r.2 0x0909090A, isHomeIp r.2 0x0909090B)) =
        some (true, some true, some false) := by decide +kernel
  obtain ⟨tr, home, hrun, hval⟩ := Lts.run_of_exec hok
  simp only [Prod.mk.injEq, List.all_eq_true, decide_eq_true_eq] at hval
  obtain ⟨hread, hin, hout⟩ := hval
  exact ⟨home, tr, hrun, hin, hout, (homeNet_exact_iff hrun).2
    fun x hx => .inr ((readCidr_iff _).mp (hread x hx))⟩

/-- The prefix length `abc` is read as 0: the call returns 0 for a text that is no CIDR, and
every address becomes a home address. -/
theorem malformed_prefix_matches_all :
    ∃ home, analyzerAddHomeCidr .empty (some (ascii "10.0.0.0/abc")) = some (0, home) ∧
      parseCidr (ascii "10.0.0.0/abc") = none ∧ ∀ src, isHomeIp home src = some true := by
  have hread : readCidr (ascii "10.0.0.0/abc") = some (10, 0) := by decide +kernel
  have hcall := analyzerAddHomeCidr_eq .empty (ascii "10.0.0.0/abc")
  rw [hread] at hcall
  refine ⟨_, hcall, by decide +kernel, fun src => ?_⟩
  have hall : src &&& maskBe 0 = 10 &&& maskBe 0 :=
    (masked_iff (Nat.zero_le 32)).mpr fun i hi => absurd hi (Nat.not_lt_zero i)
  rw [isHomeIp_any]
  simp [Slots.used_pushD, MAX_HOME_CIDR, hall]

end TrafficAnalyzer
