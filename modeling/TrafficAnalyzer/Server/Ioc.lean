import TrafficAnalyzer.Lib.Chains
import TrafficAnalyzer.Lib.Defaults
import TrafficAnalyzer.Server.Json

/-!
# The blocklist (`src/server/nta_ioc.c`)

`nta_ioc_load` puts the addresses of a JSON file into a hash table, and `nta_ioc_match_ip`
looks an address up. The table fills in defaults: the first list that names an address keeps
it. The strings of a parsed value are C strings, so each is taken up to its first NUL.

* `iocInsertAll_fill`: the table after a list of insertions.
* `ioc_refines`: lookups, size and the empty result by a scan of the file.
-/

namespace TrafficAnalyzer

open Chains Defaults

/-! ## The source -/

def IP_KEY_MAX : Nat := 46

/-- `hash_ip`, FNV-1a in 32 bits; `nta_abuse.c` and `nta_whois.c` have the same function. -/
def hashIp (s : Bytes) : UInt32 :=
  s.foldl (fun h c => (h ^^^ c.toUInt32) * 16777619) 2166136261

def IOC_BUCKETS : Nat := 8192

/-- `hash_ip(ip) % IOC_BUCKETS`. -/
def iocBucket (ip : Bytes) : Fin IOC_BUCKETS :=
  ⟨(hashIp ip).toNat % IOC_BUCKETS, Nat.mod_lt _ (by decide)⟩

/-- `NtaIoc`: an entry holds the name of its list. -/
structure NtaIoc where
  buckets : Chains IOC_BUCKETS Bytes Bytes
  nIps : Nat

/-- `calloc`. -/
def NtaIoc.zero : NtaIoc := ⟨Chains.empty, 0⟩

/-- `ioc_insert`: the table and the value returned. A copy of at most 45 bytes of a string
that passes the length check is the string. -/
def iocInsert (ioc : NtaIoc) (ip listName : Bytes) : NtaIoc × Int :=
  if IP_KEY_MAX ≤ ip.length then (ioc, -1)
  else if (find iocBucket ioc.buckets ip).isSome then (ioc, 0)
  else (⟨push iocBucket ioc.buckets ip listName, ioc.nIps + 1⟩, 1)

/-- The loop over the strings of a list. -/
def iocInsertStrings (listName : Bytes) (ioc : NtaIoc) : List Json → NtaIoc
  | [] => ioc
  | .string ip :: ips => iocInsertStrings listName (iocInsert ioc (cString ip) listName).1 ips
  | _ :: ips => iocInsertStrings listName ioc ips

/-- The body of the loop over the lists. -/
def iocInsertList (ioc : NtaIoc) (list : Json) : NtaIoc :=
  match list.getItem (ascii "name"), list.getItem (ascii "ips") with
  | some (.string nm), some (.array ips) => iocInsertStrings (cString nm) ioc ips
  | _, _ => ioc

/-- `nta_ioc_load` on a file with this value, or on one that is not read or not parsed. -/
def ntaIocLoad (root : Option Json) : Option NtaIoc :=
  match root.bind (·.getItem (ascii "lists")) with
  | some (.array lists) =>
    let ioc := lists.foldl iocInsertList .zero
    if ioc.nIps = 0 then none else some ioc
  | _ => none

/-- `nta_ioc_match_ip`. -/
def ntaIocMatchIp (ioc : Option NtaIoc) (ip : Bytes) : Option Bytes :=
  match ioc with
  | none => none
  | some ioc => if ip = [] then none else find iocBucket ioc.buckets ip

/-- `nta_ioc_size`. -/
def ntaIocSize (ioc : Option NtaIoc) : Nat :=
  match ioc with
  | none => 0
  | some ioc => ioc.nIps

/-! ## The file -/

/-- The strings among some values. -/
def jsonStrings (items : List Json) : List Bytes :=
  items.filterMap fun item => match item with
    | .string s => some (cString s)
    | _ => none

/-- The name and the strings of a list with a name that is a string and an array `ips`. -/
def blocklist (list : Json) : Option (Bytes × List Bytes) :=
  match list.getItem (ascii "name"), list.getItem (ascii "ips") with
  | some (.string nm), some (.array ips) => some (cString nm, jsonStrings ips)
  | _, _ => none

/-- These lists of a file, in order. -/
def blocklists (root : Json) : List (Bytes × List Bytes) :=
  match root.getItem (ascii "lists") with
  | some (.array lists) => lists.filterMap blocklist
  | _ => []

/-- The name of the first list that contains an address of fewer than 46 bytes. -/
def firstListing (root : Json) (ip : Bytes) : Option Bytes :=
  if ip.length < IP_KEY_MAX then ((blocklists root).find? fun l => ip ∈ l.2).map (·.1) else none

/-- The different strings of fewer than 46 bytes in the lists of a file. -/
def listedIps (root : Json) : Finset Bytes :=
  (((blocklists root).flatMap (·.2)).filter fun ip => ip.length < IP_KEY_MAX).toFinset

/-! ## The table -/

/-- What a search finds, as a partial map. -/
def NtaIoc.lists (ioc : NtaIoc) (ip : Bytes) : Option Bytes :=
  find iocBucket ioc.buckets ip

/-- An insertion of a string that is not too long. -/
theorem iocInsert_short {ip : Bytes} (hip : ip.length < IP_KEY_MAX) (listName : Bytes) (ioc : NtaIoc) :
    (iocInsert ioc ip listName).1.lists =
        (if (ioc.lists ip).isNone then Function.update ioc.lists ip (some listName)
          else ioc.lists) ∧
      (iocInsert ioc ip listName).1.nIps =
        if (ioc.lists ip).isNone then ioc.nIps + 1 else ioc.nIps := by
  unfold iocInsert
  rw [if_neg (Nat.not_le.mpr hip)]
  cases hfound : find iocBucket ioc.buckets ip with
  | some name => simp [NtaIoc.lists, hfound]
  | none =>
    simp only [NtaIoc.lists, hfound, Option.isSome_none, Option.isNone_none,
      Bool.false_eq_true, ↓reduceIte, and_true]
    funext k
    rw [Function.update_apply]
    exact find_push

theorem iocInsert_long {ip listName : Bytes} (hip : ¬ ip.length < IP_KEY_MAX) (ioc : NtaIoc) :
    (iocInsert ioc ip listName).1 = ioc := by
  rw [iocInsert, if_pos (Nat.le_of_not_lt hip)]

/-- The insertions of some lists: each string with the name of its list. -/
def insertions (ls : List (Bytes × List Bytes)) : List (Bytes × Bytes) :=
  ls.flatMap fun l => l.2.map fun ip => (ip, l.1)

def iocInsertAll (ioc : NtaIoc) (xs : List (Bytes × Bytes)) : NtaIoc :=
  xs.foldl (fun ioc x => (iocInsert ioc x.1 x.2).1) ioc

/-- The insertions that the length check lets through. -/
def shortKeys (xs : List (Bytes × Bytes)) : List (Bytes × Bytes) :=
  xs.filter fun x => x.1.length < IP_KEY_MAX

theorem iocInsertStrings_eq (listName : Bytes) (ioc : NtaIoc) (items : List Json) :
    iocInsertStrings listName ioc items =
      iocInsertAll ioc ((jsonStrings items).map fun ip => (ip, listName)) := by
  induction items generalizing ioc with
  | nil => rfl
  | cons item items ih =>
    cases item with
    | string ip => exact ih _
    | _ => exact ih ioc

theorem iocInsertList_eq (ioc : NtaIoc) (list : Json) :
    iocInsertList ioc list = iocInsertAll ioc (insertions (blocklist list).toList) := by
  rw [iocInsertList, blocklist]
  split
  · next nm ips _ _ =>
    rw [iocInsertStrings_eq, Option.toList_some, insertions, List.flatMap_singleton]
  · rfl

theorem iocInsertLists_eq (lists : List Json) (ioc : NtaIoc) :
    lists.foldl iocInsertList ioc = iocInsertAll ioc (insertions (lists.filterMap blocklist)) := by
  induction lists generalizing ioc with
  | nil => rfl
  | cons list lists ih =>
    have hsplit : insertions ((list :: lists).filterMap blocklist) =
        insertions (blocklist list).toList ++ insertions (lists.filterMap blocklist) := by
      rw [List.filterMap_cons]
      cases blocklist list with
      | none => rfl
      | some l => rw [Option.toList_some, insertions, insertions, insertions, List.flatMap_singleton,
          List.flatMap_cons]
    rw [List.foldl_cons, ih, iocInsertList_eq, hsplit, iocInsertAll, iocInsertAll, iocInsertAll,
      List.foldl_append]

/-- The table fills in the names of the lists where it has none, and counts the entries. -/
theorem iocInsertAll_fill (xs : List (Bytes × Bytes)) (ioc : NtaIoc) :
    (iocInsertAll ioc xs).lists = (fill Option.isNone ioc.lists (shortKeys xs)).1 ∧
      (iocInsertAll ioc xs).nIps =
        ioc.nIps + (fill Option.isNone ioc.lists (shortKeys xs)).2 := by
  induction xs generalizing ioc with
  | nil => exact ⟨rfl, rfl⟩
  | cons x xs ih =>
    obtain ⟨ip, name⟩ := x
    obtain ⟨hlists, hcount⟩ := ih (iocInsert ioc ip name).1
    rw [iocInsertAll] at hlists hcount
    rw [iocInsertAll, List.foldl_cons, hlists, hcount]
    rcases Decidable.em (ip.length < IP_KEY_MAX) with hip | hip
    · obtain ⟨hstep, hnum⟩ := iocInsert_short hip name ioc
      have hkeys : shortKeys ((ip, name) :: xs) = (ip, name) :: shortKeys xs :=
        List.filter_cons_of_pos (decide_eq_true hip)
      rw [hkeys, hstep, hnum, fill]
      split
      · exact ⟨rfl, by rw [Nat.add_assoc, Nat.add_comm 1]⟩
      · exact ⟨rfl, rfl⟩
    · have hkeys : shortKeys ((ip, name) :: xs) = shortKeys xs :=
        List.filter_cons_of_neg (by simpa using hip)
      rw [hkeys, iocInsert_long hip]
      exact ⟨rfl, rfl⟩

/-! ## The scan of the file -/

/-- Before an address is looked up, the strings that are too long do not matter. -/
theorem lookup_shortKeys (xs : List (Bytes × Bytes)) (ip : Bytes) :
    (shortKeys xs).lookup ip = if ip.length < IP_KEY_MAX then xs.lookup ip else none := by
  induction xs with
  | nil => simp [shortKeys]
  | cons x xs ih =>
    obtain ⟨k, name⟩ := x
    rw [shortKeys, List.filter_cons]
    rcases Decidable.em (ip = k) with rfl | hne
    · rcases Decidable.em (ip.length < IP_KEY_MAX) with hip | hip
      · simp [hip]
      · simpa [hip, shortKeys] using ih
    · have hkey : (ip == k) = false := beq_eq_false_iff_ne.mpr hne
      split
      · rw [List.lookup_cons, List.lookup_cons, hkey]
        exact ih
      · rw [List.lookup_cons, hkey]
        exact ih

/-- The first insertion of an address is that of the first list that contains it. -/
theorem lookup_insertions (ls : List (Bytes × List Bytes)) (ip : Bytes) :
    (insertions ls).lookup ip = (ls.find? fun l => ip ∈ l.2).map (·.1) := by
  induction ls with
  | nil => rfl
  | cons l ls ih =>
    obtain ⟨name, ips⟩ := l
    rw [insertions, List.flatMap_cons, List.lookup_append]
    rcases Decidable.em (ip ∈ ips) with hip | hip
    · have hfirst : (ips.map fun ip => (ip, name)).lookup ip = some name := by
        have hlisted : ip ∈ (ips.map fun ip => (ip, name)).map Prod.fst := by simpa using hip
        obtain ⟨v, hv⟩ := Option.isSome_iff_exists.mp (lookup_isSome.mpr hlisted)
        obtain ⟨a, b, hab, _⟩ := List.lookup_eq_some_iff.mp hv
        have hmem : (ip, v) ∈ ips.map fun ip => (ip, name) := by
          rw [hab]
          simp
        obtain ⟨_, _, he⟩ := List.mem_map.mp hmem
        rw [hv, (Prod.mk.inj he).2]
      rw [hfirst, List.find?_cons_of_pos (by simpa using hip)]
      rfl
    · have hnone : (ips.map fun ip => (ip, name)).lookup ip = none := by
        rw [List.lookup_eq_none_iff]
        intro x hx
        obtain ⟨k, hk, rfl⟩ := List.mem_map.mp hx
        exact bne_iff_ne.mpr fun he => hip (he ▸ hk)
      rw [hnone, Option.none_or, List.find?_cons_of_neg (by simpa using hip)]
      exact ih

/-- The insertions that a whole file leads to. -/
def fileInsertions (root : Json) : List (Bytes × Bytes) := insertions (blocklists root)

/-- The table of a file. -/
theorem ntaIocLoad_eq (root : Json) :
    ntaIocLoad (some root) =
      if (iocInsertAll .zero (fileInsertions root)).nIps = 0 then none
      else some (iocInsertAll .zero (fileInsertions root)) := by
  rw [ntaIocLoad, Option.bind_some, fileInsertions, blocklists]
  split
  · next lists hlists => rw [iocInsertLists_eq]
  · rfl

theorem table_lists (root : Json) (ip : Bytes) :
    (iocInsertAll .zero (fileInsertions root)).lists ip = firstListing root ip := by
  have hempty : ∀ k, NtaIoc.zero.lists k = none := fun _ => rfl
  rw [(iocInsertAll_fill _ _).1, fill_apply fun _ _ => rfl, hempty, Option.isNone_none, if_pos rfl,
    Option.or_none, lookup_shortKeys, fileInsertions, lookup_insertions, firstListing]

theorem table_nIps (root : Json) :
    (iocInsertAll .zero (fileInsertions root)).nIps = (listedIps root).card := by
  have hzero : NtaIoc.zero.nIps = 0 := rfl
  rw [(iocInsertAll_fill _ _).2, fill_count fun _ _ => rfl, hzero, Nat.zero_add]
  refine congrArg Finset.card (Finset.ext fun ip => ?_)
  have hfree : (NtaIoc.zero.lists ip).isNone = true := rfl
  rw [mem_freeKeys, listedIps, List.mem_toFinset, List.mem_filter, List.mem_flatMap,
    and_iff_left hfree]
  simp only [shortKeys, fileInsertions, insertions, List.mem_map, List.mem_filter,
    List.mem_flatMap, decide_eq_true_eq]
  constructor
  · rintro ⟨x, ⟨⟨l, hl, k, hk, rfl⟩, hshort⟩, rfl⟩
    exact ⟨⟨l, hl, hk⟩, hshort⟩
  · rintro ⟨⟨l, hl, hk⟩, hshort⟩
    exact ⟨(ip, l.1), ⟨⟨l, hl, ip, hk, rfl⟩, hshort⟩, rfl⟩

/-- A lookup answers with the first list of the file that contains the address, the size is
the number of different addresses, and a file without addresses is not loaded. -/
theorem ioc_refines (root : Json) :
    (∀ ip, ip ≠ [] → ntaIocMatchIp (ntaIocLoad (some root)) ip = firstListing root ip) ∧
      ntaIocSize (ntaIocLoad (some root)) = (listedIps root).card ∧
      (ntaIocLoad (some root) = none ↔ (listedIps root).card = 0) := by
  have hcount := table_nIps root
  rw [ntaIocLoad_eq]
  rcases Decidable.em ((iocInsertAll .zero (fileInsertions root)).nIps = 0) with hzero | hsome
  · rw [if_pos hzero]
    refine ⟨fun ip _ => ?_, hcount ▸ hzero.symm, iff_of_true rfl (hcount ▸ hzero)⟩
    -- a listed address would be counted
    rw [ntaIocMatchIp, eq_comm, Option.eq_none_iff_forall_ne_some]
    intro name hname
    unfold firstListing at hname
    split at hname
    · next hshort =>
      obtain ⟨l, hl, _⟩ := Option.map_eq_some_iff.mp hname
      have hmem : ip ∈ listedIps root := by
        rw [listedIps, List.mem_toFinset, List.mem_filter, List.mem_flatMap]
        exact ⟨⟨l, List.mem_of_find?_eq_some hl, by simpa using List.find?_some hl⟩,
          decide_eq_true hshort⟩
      rw [hcount, Finset.card_eq_zero] at hzero
      rw [hzero] at hmem
      exact absurd hmem (Finset.notMem_empty ip)
    · cases hname
  · rw [if_neg hsome]
    refine ⟨fun ip hip => ?_, hcount, iff_of_false (fun h => nomatch h) (hcount ▸ hsome)⟩
    rw [ntaIocMatchIp, if_neg hip]
    exact table_lists root ip

/-- Two lists that share an address, and one without a name. -/
def exampleBlocklist : Json :=
  .object [(ascii "lists", .array [
    .object [(ascii "ips", .array [.string (ascii "9.9.9.9")])],
    .object [(ascii "name", .string (ascii "feodo-c2")),
      (ascii "ips", .array [.null, .string (ascii "1.2.3.4")])],
    .object [(ascii "name", .string (ascii "tor")),
      (ascii "ips", .array [.string (ascii "1.2.3.4"), .string (ascii "5.6.7.8")])]])]

theorem ioc_refines_shared :
    ntaIocMatchIp (ntaIocLoad (some exampleBlocklist)) (ascii "1.2.3.4") =
      some (ascii "feodo-c2") := by
  have hfirst : firstListing exampleBlocklist (ascii "1.2.3.4") = some (ascii "feodo-c2") := by
    decide +kernel
  rw [← hfirst]
  exact (ioc_refines exampleBlocklist).1 _ (by decide)

end TrafficAnalyzer
