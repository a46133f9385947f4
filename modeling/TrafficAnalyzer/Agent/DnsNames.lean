import TrafficAnalyzer.Lib.Joined
import TrafficAnalyzer.Lib.RealDouble
import TrafficAnalyzer.Agent.Steps

/-!
# DNS names

A DNS name travels as a list of labels, each behind its length byte, and
`extract_dns_name` writes it as a text with dots. The text is exact while it fits the
buffer. A label may hold any byte, dots included, and the text no longer tells where a
label ends; `detect_dns_tunnel` measures the first label on the text.

* `dnsName_wire`: decoding undoes the wire form, and a bad length byte gives no name.
* `longLabel_counts`: a long first label without a dot is counted.
* `longLabel_hides`: a dot or a bad length byte hides a long first label.
-/

namespace TrafficAnalyzer

/-! ## The wire form -/

/-- A label of a DNS name. -/
abbrev DnsLabel := { l : Bytes // l ≠ [] ∧ l.length ≤ 63 }

def dot : UInt8 := '.'.toUInt8

/-- The labels on the wire, each behind its length byte. -/
def wire (ls : List DnsLabel) : Bytes := ls.flatMap fun l => UInt8.ofNat l.val.length :: l.val

/-- The labels joined by dots. -/
def dotted (ls : List DnsLabel) : Bytes := [dot].intercalate (ls.map (·.val))

/-- The text after one more label. -/
def appendLabel (text : Bytes) (l : DnsLabel) : Bytes :=
  if text = [] then l.val else text ++ dot :: l.val

theorem wire_cons (l : DnsLabel) (ls : List DnsLabel) :
    wire (l :: ls) = UInt8.ofNat l.val.length :: (l.val ++ wire ls) := rfl

theorem dotted_ne_nil {ls : List DnsLabel} (h : ls ≠ []) : dotted ls ≠ [] := by
  obtain ⟨l, ls, rfl⟩ := List.exists_cons_of_ne_nil h
  obtain ⟨b, rest, hl⟩ := List.exists_cons_of_ne_nil l.property.1
  rw [dotted, List.map_cons, hl, List.intercalate_cons_cons_left]
  exact List.cons_ne_nil _ _

/-- The text grows label by label. -/
theorem foldl_appendLabel (ls : List DnsLabel) : ls.foldl appendLabel [] = dotted ls := by
  induction ls using List.reverseRecOn with
  | nil => rfl
  | append_singleton ls l ih =>
    rw [List.foldl_append, List.foldl_cons, List.foldl_nil, ih, appendLabel]
    by_cases hls : ls = []
    · rw [hls, dotted, List.map_nil, List.intercalate_nil, if_pos rfl, List.nil_append, dotted,
        List.map_singleton, List.intercalate_singleton]
    · rw [if_neg (dotted_ne_nil hls), dotted, dotted, List.map_append, List.map_singleton,
        Joined.join_append (fun h => hls (List.map_eq_nil_iff.mp h)) (List.cons_ne_nil _ _),
        List.intercalate_singleton]

theorem length_appendLabel (text : Bytes) (l : DnsLabel) :
    text.length ≤ (appendLabel text l).length := by
  unfold appendLabel
  split
  · next h => simp [h]
  · simp

theorem length_foldl_appendLabel (text : Bytes) (ls : List DnsLabel) :
    text.length ≤ (ls.foldl appendLabel text).length := by
  induction ls generalizing text with
  | nil => exact Nat.le_refl _
  | cons l ls ih => exact Nat.le_trans (length_appendLabel text l) (ih (appendLabel text l))

/-! ## The label walk -/

section Walk

variable {payload rest : Bytes} {ptr fuel : Nat} {out : Slots UInt8 DOMAIN_SIZE}

theorem getElem?_of_drop {b : UInt8} (h : payload.drop ptr = b :: rest) :
    payload[ptr]? = some b ∧ payload.drop (ptr + 1) = rest := by
  constructor
  · rw [← List.head?_drop, h, List.head?_cons]
  · rw [← List.tail_drop, h, List.tail_cons]

variable (out) in
/-- A label that fits is copied to its end. -/
theorem copyLabel_fits {l : Bytes} (hp : payload.drop ptr = l ++ rest)
    (hfit : out.used.length + l.length ≤ DOMAIN_SIZE - 1) :
    ∃ out', copyLabel payload l.length ptr out = some (ptr + l.length, out') ∧
      out'.used = out.used ++ l := by
  induction l generalizing ptr out with
  | nil => exact ⟨out, rfl, (List.append_nil _).symm⟩
  | cons b l ih =>
    rw [List.length_cons] at hfit
    obtain ⟨hb, hdrop⟩ := getElem?_of_drop hp
    have hroom : out.count < DOMAIN_SIZE - 1 := by simp only [Slots.count]; omega
    obtain ⟨out1, hpush, hused⟩ := out.push?_of_lt b (Nat.lt_of_lt_of_le hroom (Nat.sub_le _ _))
    obtain ⟨out', hcopy, hout'⟩ := ih out1 hdrop
      (by rw [hused, List.length_append, List.length_singleton]; omega)
    refine ⟨out', ?_, by rw [hout', hused, List.append_assoc, List.singleton_append]⟩
    simp only [List.length_cons, copyLabel, hroom, ↓reduceIte, hb, hpush, hcopy,
      Option.bind_eq_bind, Option.bind_some]
    rw [Nat.add_assoc, Nat.add_comm 1]

theorem appendDot_fits (h : out.used.length < DOMAIN_SIZE - 1) :
    ∃ out', appendDot out = some out' ∧
      out'.used = if out.used = [] then [] else out.used ++ [dot] := by
  unfold appendDot
  by_cases hnil : out.used = []
  · refine ⟨out, if_neg fun hc => ?_, by rw [if_pos hnil, hnil]⟩
    rw [Slots.count, hnil] at hc
    exact absurd hc.1 (Nat.lt_irrefl 0)
  · rw [if_pos ⟨List.length_pos_iff.mpr hnil, h⟩, if_neg hnil]
    exact out.push?_of_lt dot (Nat.lt_of_lt_of_le h (Nat.sub_le _ _))

theorem length_byte (l : DnsLabel) : (UInt8.ofNat l.val.length).toNat = l.val.length :=
  UInt8.toNat_ofNat_of_lt' (Nat.lt_of_le_of_lt l.property.2 (by decide))

variable (fuel) in
/-- One iteration of the walk, on a label that fits. -/
theorem walkLabels_label (l : DnsLabel)
    (hp : payload.drop ptr = UInt8.ofNat l.val.length :: (l.val ++ rest))
    (hfit : (appendLabel out.used l).length ≤ DOMAIN_SIZE - 1) :
    ∃ out', walkLabels payload (fuel + 1) ptr out =
        walkLabels payload fuel (ptr + 1 + l.val.length) out' ∧
      out'.used = appendLabel out.used l := by
  obtain ⟨hbyte, hdrop⟩ := getElem?_of_drop hp
  have hlen : payload.length = ptr + (1 + (l.val.length + rest.length)) := by
    have h := congrArg List.length hp
    rw [List.length_drop, List.length_cons, List.length_append] at h
    omega
  have hpos := List.length_pos_iff.mpr l.property.1
  have hshort : out.used.length < DOMAIN_SIZE - 1 := by
    unfold appendLabel at hfit
    split at hfit
    · next hnil => rw [hnil]; decide
    · rw [List.length_append, List.length_cons] at hfit
      omega
  obtain ⟨out1, hdot, hused1⟩ := appendDot_fits hshort
  have hused : out1.used ++ l.val = appendLabel out.used l := by
    rw [hused1, appendLabel]
    split
    · rfl
    · rw [List.append_assoc, List.singleton_append]
  obtain ⟨out', hcopy, hout'⟩ := copyLabel_fits out1 hdrop
    (by rw [← List.length_append, hused]; exact hfit)
  refine ⟨out', ?_, hout'.trans hused⟩
  have hne : UInt8.ofNat l.val.length ≠ 0 := fun h => by
    have h0 := congrArg UInt8.toNat h
    rw [length_byte] at h0
    exact absurd h0 (Nat.ne_of_gt hpos)
  have hgood : ¬ (l.val.length > 63 ∨ ptr + 1 + l.val.length > payload.length) := by
    have hmax := l.property.2
    omega
  simp only [walkLabels, show ptr < payload.length by omega, ↓reduceIte, hbyte, hne, hgood, hdot,
    length_byte, hcopy, Option.bind_eq_bind, Option.bind_some]

variable (fuel out) in
/-- The walk over a list of labels whose text fits. -/
theorem walkLabels_wire (ls : List DnsLabel) (hp : payload.drop ptr = wire ls ++ rest)
    (hfit : (ls.foldl appendLabel out.used).length ≤ DOMAIN_SIZE - 1) :
    ∃ out', walkLabels payload (fuel + ls.length) ptr out =
        walkLabels payload fuel (ptr + (wire ls).length) out' ∧
      out'.used = ls.foldl appendLabel out.used := by
  induction ls generalizing ptr out with
  | nil => exact ⟨out, rfl, rfl⟩
  | cons l ls ih =>
    rw [wire_cons, List.cons_append, List.append_assoc] at hp
    obtain ⟨out1, hstep, hused⟩ := walkLabels_label (fuel + ls.length) l hp
      (Nat.le_trans (length_foldl_appendLabel _ ls) hfit)
    have hdrop : payload.drop (ptr + 1 + l.val.length) = wire ls ++ rest := by
      rw [← List.drop_drop, (getElem?_of_drop hp).2, List.drop_left]
    obtain ⟨out', hrest, hout'⟩ := ih out1 hdrop (by rw [hused]; exact hfit)
    refine ⟨out', ?_, by rw [hout', hused, List.foldl_cons]⟩
    rw [List.length_cons, ← Nat.add_assoc, hstep, hrest, wire_cons, List.length_cons,
      List.length_append]
    congr 1
    omega

/-- The walk ends at a zero byte and at the end of the payload. -/
theorem walkLabels_end (h : payload.drop ptr = [] ∨ ∃ tail, payload.drop ptr = 0 :: tail) :
    walkLabels payload (fuel + 1) ptr out = some (some out) := by
  unfold walkLabels
  rcases h with hend | ⟨tail, hzero⟩
  · rw [if_neg (Nat.not_lt.mpr (List.drop_eq_nil_iff.mp hend))]
  · have hlt : ptr < payload.length := by
      rw [← Nat.not_le, ← List.drop_eq_nil_iff, hzero]
      exact List.cons_ne_nil _ _
    simp only [hlt, ↓reduceIte, (getElem?_of_drop hzero).1, Option.bind_eq_bind, Option.bind_some]

/-- The walk gives up at a length byte above 63 and at a label that overruns the payload. -/
theorem walkLabels_bad {b : UInt8} (hp : payload.drop ptr = b :: rest)
    (hbad : 63 < b.toNat ∨ rest.length < b.toNat) :
    walkLabels payload (fuel + 1) ptr out = some none := by
  have hlen : payload.length = ptr + 1 + rest.length := by
    have h := congrArg List.length hp
    rw [List.length_drop, List.length_cons] at h
    omega
  have hne : b ≠ 0 := fun h => by
    rw [h, UInt8.toNat_zero] at hbad
    omega
  have hguard : b.toNat > 63 ∨ ptr + 1 + b.toNat > payload.length := by omega
  simp only [walkLabels, show ptr < payload.length by omega, ↓reduceIte, (getElem?_of_drop hp).1,
    hne, hguard, Option.bind_eq_bind, Option.bind_some]

end Walk

/-! ## Decoding -/

/-- `extract_dns_name` returns the length of `text`, and the buffer holds the text and its
terminator. -/
structure Extracts (payload text : Bytes) : Prop where
  returns : extractDnsName payload = some text
  terminated : ∃ out buf, walkLabels payload (payload.length + 1) 12 .empty = some (some out) ∧
    out.push? 0 = some buf ∧ buf.used = text ++ [0]

section Decode

variable {header rest : Bytes} {ls : List DnsLabel}

theorem length_le_wire (ls : List DnsLabel) : ls.length ≤ (wire ls).length := by
  induction ls with
  | nil => exact Nat.le_refl _
  | cons l ls ih =>
    rw [wire_cons, List.length_cons, List.length_cons, List.length_append]
    omega

variable (rest) in
/-- The walk of `extract_dns_name` behind the labels `ls`. -/
theorem walkLabels_behind (hheader : header.length = 12) (hfit : (dotted ls).length < DOMAIN_SIZE) :
    let payload := header ++ wire ls ++ rest
    ∃ fuel ptr out, walkLabels payload (payload.length + 1) 12 .empty =
        walkLabels payload (fuel + 1) ptr out ∧
      payload.drop ptr = rest ∧ out.used = dotted ls := by
  intro payload
  have hdrop : payload.drop 12 = wire ls ++ rest := by
    simp only [payload]
    rw [List.append_assoc, ← hheader, List.drop_left]
  have hlen : ls.length ≤ payload.length := by
    have h := length_le_wire ls
    simp only [payload, List.length_append]
    omega
  obtain ⟨out, hwalk, hused⟩ := walkLabels_wire (payload.length - ls.length + 1) .empty ls hdrop
    (by rw [Slots.used_empty, foldl_appendLabel]; exact Nat.le_sub_one_of_lt hfit)
  refine ⟨payload.length - ls.length, 12 + (wire ls).length, out, ?_, ?_, ?_⟩
  · rw [← hwalk]
    congr 1
    omega
  · rw [← List.drop_drop, hdrop, List.drop_left]
  · rw [hused, Slots.used_empty, foldl_appendLabel]

/-- Decoding undoes the wire form, whatever the bytes of the labels: the labels joined by
dots, when the text fits and the name ends at a zero byte or at the end of the payload. A
length byte above 63 or a label that overruns the payload gives no name. -/
theorem dnsName_wire (hheader : header.length = 12) (hfit : (dotted ls).length < DOMAIN_SIZE) :
    (ls ≠ [] → (rest = [] ∨ ∃ tail, rest = 0 :: tail) →
      Extracts (header ++ wire ls ++ rest) (dotted ls)) ∧
    ∀ b tail, rest = b :: tail → (63 < b.toNat ∨ tail.length < b.toNat) →
      extractDnsName (header ++ wire ls ++ rest) = some [] := by
  obtain ⟨fuel, ptr, out, hwalk, hdrop, hused⟩ := walkLabels_behind rest hheader hfit
  constructor
  · intro hls hend
    replace hwalk := hwalk.trans (walkLabels_end (by rwa [hdrop]))
    obtain ⟨buf, hpush, hbuf⟩ := out.push?_of_lt 0 (by rw [Slots.count, hused]; exact hfit)
    have hlong : ¬ (header ++ wire ls ++ rest).length < 13 := by
      have hwire := length_le_wire ls
      have hpos := List.length_pos_iff.mpr hls
      simp only [List.length_append]
      omega
    refine ⟨?_, out, buf, hwalk, hpush, by rw [hbuf, hused]⟩
    simp only [extractDnsName, hlong, ↓reduceIte, hwalk, hpush, hused, Option.bind_eq_bind,
      Option.bind_some]
  · rintro b tail rfl hbad
    replace hwalk := hwalk.trans (walkLabels_bad hdrop hbad)
    simp only [extractDnsName, hwalk, Option.bind_eq_bind, Option.bind_some, ite_self]

/-- The name of the comment in the source. -/
def googleName : List DnsLabel :=
  [⟨ascii "www", by decide⟩, ⟨ascii "google", by decide⟩, ⟨ascii "com", by decide⟩]

theorem dnsName_wire_google :
    Extracts (List.replicate 12 0 ++ wire googleName ++ [0, 0, 1]) (ascii "www.google.com") :=
  (@dnsName_wire (List.replicate 12 0) _ googleName (by decide) (by decide)).1
    (List.cons_ne_nil _ _) (.inr ⟨[0, 1], rfl⟩)

end Decode

/-! ## The first label -/

section Prefix

variable {payload rest : Bytes} {ptr fuel : Nat} {out : Slots UInt8 DOMAIN_SIZE}

theorem push?_used {b : UInt8} {u : Slots UInt8 DOMAIN_SIZE} (h : out.push? b = some u) :
    u.used = out.used ++ [b] := by
  unfold Slots.push? at h
  split at h
  · rw [← Option.some.inj h]
  · cases h

theorem copyLabel_extends {n ptr' : Nat} {out' : Slots UInt8 DOMAIN_SIZE}
    (h : copyLabel payload n ptr out = some (ptr', out')) : out.used <+: out'.used := by
  induction n generalizing ptr out with
  | zero =>
    rw [copyLabel, Option.some.injEq, Prod.mk.injEq] at h
    rw [h.2]
  | succ n ih =>
    unfold copyLabel at h
    split at h
    · simp only [Option.bind_eq_bind, Option.bind_eq_some_iff] at h
      obtain ⟨b, -, out1, hpush, hrest⟩ := h
      exact (push?_used hpush ▸ List.prefix_append out.used [b]).trans (ih hrest)
    · rw [Option.some.injEq, Prod.mk.injEq] at h
      rw [h.2]

theorem appendDot_extends {out' : Slots UInt8 DOMAIN_SIZE} (h : appendDot out = some out') :
    out.used <+: out'.used := by
  unfold appendDot at h
  split at h
  · exact push?_used h ▸ List.prefix_append out.used [dot]
  · rw [Option.some.inj h]

/-- The walk keeps what it has written. -/
theorem walkLabels_extends {out' : Slots UInt8 DOMAIN_SIZE}
    (h : walkLabels payload fuel ptr out = some (some out')) : out.used <+: out'.used := by
  induction fuel generalizing ptr out with
  | zero => cases h
  | succ fuel ih =>
    unfold walkLabels at h
    split at h
    · simp only [Option.bind_eq_bind, Option.bind_eq_some_iff] at h
      obtain ⟨b, -, h⟩ := h
      split at h
      · rw [Option.some.inj (Option.some.inj h)]
      split at h
      · cases Option.some.inj h
      obtain ⟨out1, hdot, h⟩ := Option.bind_eq_some_iff.mp h
      obtain ⟨⟨ptr2, out2⟩, hcopy, hrest⟩ := Option.bind_eq_some_iff.mp h
      exact ((appendDot_extends hdot).trans (copyLabel_extends hcopy)).trans (ih hrest)
    · rw [Option.some.inj (Option.some.inj h)]

/-- A name that is decoded starts with its first label. -/
theorem firstLabel_begins {l : DnsLabel} (hp : payload.drop 12 = wire [l] ++ rest)
    (hname : dnsName payload ≠ []) : l.val <+: dnsName payload := by
  have hextract := extractDnsName_eq payload
  unfold extractDnsName at hextract
  split at hextract
  · exact absurd (Option.some.inj hextract).symm hname
  obtain ⟨r, hwalk, hr⟩ := Option.bind_eq_some_iff.mp hextract
  cases r with
  | none => exact absurd (Option.some.inj hr).symm hname
  | some out =>
    obtain ⟨buf, -, hout⟩ := Option.bind_eq_some_iff.mp hr
    rw [← Option.some.inj hout]
    have hfit : ([l].foldl appendLabel (Slots.empty : Slots UInt8 DOMAIN_SIZE).used).length ≤
        DOMAIN_SIZE - 1 :=
      Nat.le_trans (show (appendLabel [] l).length ≤ 63 from l.property.2) (by decide)
    obtain ⟨out1, hstep, hused⟩ := walkLabels_wire payload.length .empty [l] hp hfit
    rw [List.length_singleton] at hstep
    have hpre := walkLabels_extends (hstep.symm.trans hwalk)
    rw [hused] at hpre
    exact hpre

end Prefix

/-- The first label as `detect_dns_tunnel` measures it on the text. -/
def firstLabel (domain : Bytes) : Bytes := domain.takeWhile (· ≠ dot)

theorem firstLabel_long {domain : Bytes} {l : DnsLabel} (hpre : l.val <+: domain)
    (hlong : DNS_SUBDOMAIN_LEN < l.val.length)
    (hdot : dot ∉ l.val.take (DNS_SUBDOMAIN_LEN + 1)) :
    DNS_SUBDOMAIN_LEN < (firstLabel domain).length := by
  obtain ⟨rest, rfl⟩ := hpre
  have hkept : ∀ b ∈ l.val.take (DNS_SUBDOMAIN_LEN + 1), decide (b ≠ dot) = true := fun b hb =>
    decide_eq_true fun he => hdot (he ▸ hb)
  rw [firstLabel, ← List.take_append_drop (DNS_SUBDOMAIN_LEN + 1) l.val, List.append_assoc,
    List.takeWhile_append_of_pos hkept, List.length_append, List.length_take,
    Nat.min_eq_left hlong]
  exact Nat.le_add_right _ _

variable {R : Type} [Double R]

/-- `detect_dns_tunnel` increments `dns_suspicious_count`. -/
def Counted (s : Suspect R) (payload : Bytes) : Prop :=
  ∃ s' verdict, detectDnsTunnel s payload = some (s', verdict) ∧
    s'.dnsSuspiciousCount = inc32 s.dnsSuspiciousCount

theorem counted_of_suspicious {s : Suspect R} {payload : Bytes}
    (h : querySuspicious s payload = true) : Counted s payload := by
  refine ⟨(dnsTunnelStep s payload).1, _, detectDnsTunnel_eq s payload, ?_⟩
  rw [dnsTunnelStep_record, h, countIf_true]

/-- A query whose name is decoded and whose first label is longer than 50 bytes, with no
dot among the first 51, is counted, in every state of the record. -/
theorem longLabel_counts (s : Suspect R) {payload rest : Bytes} {l : DnsLabel}
    (hp : payload.drop 12 = wire [l] ++ rest) (hlong : DNS_SUBDOMAIN_LEN < l.val.length)
    (hname : dnsName payload ≠ []) (hdot : dot ∉ l.val.take (DNS_SUBDOMAIN_LEN + 1)) :
    Counted s payload := by
  have hfirst := firstLabel_long (firstLabel_begins hp hname) hlong hdot
  refine counted_of_suspicious ?_
  have hlen : decide (((dnsName payload).takeWhile (· ≠ '.'.toUInt8)).length >
      DNS_SUBDOMAIN_LEN) = true := decide_eq_true hfirst
  rw [querySuspicious, decide_eq_true hname, Bool.true_and, dnsSuspicious, hlen]
  rfl

/-! ## Labels that hide -/

/-- A text of one repeated byte has no entropy. -/
theorem calculateEntropy_replicate {n : Nat} (hn : n ≠ 0) (b : UInt8) :
    calculateEntropy (R := ℝ) (List.replicate n b) = 0 := by
  have hn' : (n : ℝ) ≠ 0 := Nat.cast_ne_zero.mpr hn
  rw [calculateEntropy, List.length_replicate, if_neg hn]
  have hstep : ∀ i : Nat, (fun (entropy : ℝ) i =>
      let freq := (List.replicate n b).count (UInt8.ofNat i)
      if freq = 0 then entropy
      else
        let p : ℝ := Double.ofInt freq / Double.ofInt n
        entropy - p * Double.log2 p) (Double.ofInt 0) i = Double.ofInt 0 := fun i => by
    dsimp only
    rw [List.count_replicate]
    split
    · have hp : (Double.ofInt (n : Int) / Double.ofInt (n : Int) : ℝ) = 1 := by
        simp [Double.ofInt, hn']
      simp only [hp]
      simp [Double.log2, Double.ofInt]
    · rw [if_pos rfl]
  rw [List.foldl_fixed' hstep]
  simp [Double.ofInt]

/-- A query for a name that starts with the label `l`. -/
def queryOf (l : DnsLabel) (rest : Bytes) : Bytes := List.replicate 12 0 ++ (wire [l] ++ rest)

/-- 51 dots, and a label of 51 letters. -/
def dotsLabel : DnsLabel := ⟨List.replicate 51 dot, by decide⟩
def lettersLabel : DnsLabel := ⟨List.replicate 51 'a'.toUInt8, by decide⟩

/-- 51 letters are counted. -/
theorem longLabel_counts_letters :
    Counted (Suspect.fresh 0 0 : Suspect ℝ) (queryOf lettersLabel [0]) :=
  longLabel_counts _ (l := lettersLabel) rfl (by decide) (by decide +kernel) (by decide)

/-- A label of dots is measured as empty, and a compression pointer behind a label of
letters makes `extract_dns_name` give up. Neither query is counted. -/
theorem longLabel_hides :
    ¬ Counted (Suspect.fresh 0 0 : Suspect ℝ) (queryOf dotsLabel [0]) ∧
      ¬ Counted (Suspect.fresh 0 0 : Suspect ℝ) (queryOf lettersLabel [0xC0, 0x0C]) := by
  have hquiet : ∀ payload, querySuspicious (Suspect.fresh 0 0 : Suspect ℝ) payload = false →
      ¬ Counted (Suspect.fresh 0 0 : Suspect ℝ) payload := by
    rintro payload hq ⟨s', verdict, hs', hcount⟩
    rw [detectDnsTunnel_eq] at hs'
    have hrec : (dnsTunnelStep (Suspect.fresh 0 0 : Suspect ℝ) payload).1 = s' :=
      congrArg Prod.fst (Option.some.inj hs')
    rw [dnsTunnelStep_record, hq, countIf_false] at hrec
    rw [← hrec] at hcount
    exact absurd (show (0 : Int) = inc32 0 from hcount) (by decide)
  refine ⟨hquiet _ ?_, hquiet _ ?_⟩
  · have hname : dnsName (queryOf dotsLabel [0]) = List.replicate 51 dot := by decide +kernel
    have hfirst : ((List.replicate 51 dot).takeWhile (· ≠ '.'.toUInt8)).length = 0 := by
      decide +kernel
    rw [querySuspicious, hname, dnsSuspicious, calculateEntropy_replicate (by decide), hfirst]
    simp [countQuery, Suspect.fresh, IpBaseline.zero, Double.lt, dnsEntropyThresh, Double.ofInt,
      EWMA_CALIBRATION]
    norm_num
  · have hname : dnsName (queryOf lettersLabel [0xC0, 0x0C]) = [] := by decide +kernel
    rw [querySuspicious, hname]
    rfl

end TrafficAnalyzer
