import Mathlib.Data.List.Infix
import TrafficAnalyzer.Control.Commands
import TrafficAnalyzer.Lib.Renumber

/-!
# Generated dashboards (`scripts/dash_gen.py`)

`validate` completes the dashboard that a language model wrote, and repairs the ids of its
panels in one pass: a panel without an id, or with one that was seen, gets its position.

1. `validatePanels_ids`: the pass over the panels gives the names of `Renumber.assign`.
2. `validate_again`: a dashboard that was completed stays as it is.
3. `panelIds_iff`: when the ids that come out are distinct and unique ids are kept.
4. `missingId_clashes`: a panel without an id behind one that has its position as id.
-/

namespace TrafficAnalyzer

/-! ## Values -/

/-- `ValueError` with its text, and the exceptions of Python's own operations. -/
inductive PyError
  | valueError (text : String)
  | typeError
  | attributeError
deriving DecidableEq

/-- `key in d`. -/
def PyDict.has (d : PyDict) (key : PyStr) : Bool := (d.get key).isSome

/-- `d[key] = v`. -/
def PyDict.setItem : PyDict → PyStr → PyValue → PyDict
  | [], key, v => [(key, v)]
  | e :: d, key, v => if e.1 = key then (key, v) :: d else e :: PyDict.setItem d key v

/-- `d.setdefault(key, v)`. -/
def PyDict.setDefault (d : PyDict) (key : PyStr) (v : PyValue) : PyDict :=
  if d.has key then d else d.setItem key v

/-- `setdefault` for these keys, in their order. -/
def PyDict.setDefaults (d : PyDict) (defaults : PyDict) : PyDict :=
  defaults.foldl (fun d e => PyDict.setDefault d e.1 e.2) d

/-- `bool(v)`. -/
def PyValue.truthy : PyValue → Bool
  | .none => false
  | .bool b => b
  | .int n => n ≠ 0
  | .float (.finite _ mant _) => mant.val ≠ 0
  | .float _ => true
  | .str s => !s.isEmpty
  | .list items => !items.isEmpty
  | .dict entries => !entries.isEmpty

/-- `s in v` for a `str`. -/
def PyValue.contains (s : PyStr) : PyValue → Except PyError Bool
  | .str t => .ok (decide (s <:+: t))
  | .list items => .ok (items.any fun | .str t => decide (t = s) | _ => false)
  | .dict entries => .ok (PyDict.has entries s)
  | _ => .error .typeError

/-- What a set compares a value by: numbers of one value are equal. JSON decodes each `NaN` to
one object, which a set takes for equal to itself. -/
inductive PyKey
  | none
  | int (n : Int)
  /-- `scaled / 2 ^ 1074`, not an integer -/
  | fraction (scaled : Int)
  | inf (neg : Bool)
  | nan
  | str (s : PyStr)
deriving DecidableEq

/-- The key of a value in a set: lists and dictionaries are not hashable. -/
def PyValue.key : PyValue → Except PyError PyKey
  | .none => .ok .none
  | .bool b => .ok (.int (if b then 1 else 0))
  | .int n => .ok (.int n)
  | .float (.finite neg mant scale) =>
    let m : Int := (mant.val * 2 ^ scale.val : Nat)
    let n := if neg then -m else m
    .ok (if n % 2 ^ 1074 = 0 then .int (n / 2 ^ 1074) else .fraction n)
  | .float (.inf neg) => .ok (.inf neg)
  | .float (.nan _) => .ok .nan
  | .str s => .ok (.str s)
  | .list _ | .dict _ => .error .typeError

/-! ## `validate` -/

/-- `re.sub(r"[^a-zA-Z0-9_-]", "-", ...)` on one character. -/
def uidChar (c : Nat) : Nat :=
  if (97 ≤ c ∧ c ≤ 122) ∨ (65 ≤ c ∧ c ≤ 90) ∨ (48 ≤ c ∧ c ≤ 57) ∨ c = 95 ∨ c = 45 then c else 45

def dashUid (name : PyStr) : PyStr := ((py "nta-ai-" ++ name).map uidChar).take 40

def dashDefaults (name : PyStr) : PyDict :=
  [(py "title", .str name), (py "schemaVersion", .int 39), (py "editable", .bool true),
    (py "time", .dict [(py "from", .str (py "now-1h")), (py "to", .str (py "now"))]),
    (py "refresh", .str (py "30s")), (py "tags", .list [])]

/-- `if t not in tags: tags.append(t)`. -/
def addTag (tags : PyValue) (t : PyStr) : Except PyError PyValue := do
  if ← tags.contains t then return tags
  match tags with
  | .list items => return .list (items ++ [.str t])
  | _ => throw .attributeError

/-- The fields of the dashboard itself. -/
def validateHead (dash : PyDict) (name : PyStr) : Except PyError PyDict := do
  let dash := dash.setDefaults (dashDefaults name)
  let tags ← [py "nta", py "ai-gen"].foldlM addTag ((dash.get (py "tags")).getD (.list []))
  let dash := (dash.setItem (py "tags") tags).setItem (py "uid") (.str (dashUid name))
  return (dash.without (py "version")).without (py "id")

def influxSource : PyValue :=
  .dict [(py "type", .str (py "influxdb")), (py "uid", .str (py "influxdb-nta"))]

def targetDefaults : PyDict := [(py "refId", .str (py "A")), (py "datasource", influxSource)]

/-- One target of the panel at position `i`. -/
def validateTarget (i : Nat) : PyValue → Except PyError PyValue
  | .dict t => do
    let t := PyDict.setDefaults t targetDefaults
    match t.get (py "query") with
    | none => throw (.valueError ("painel " ++ toString i ++ " target sem 'query'."))
    | some query =>
      if !query.truthy then
        throw (.valueError ("painel " ++ toString i ++ " target sem 'query'."))
      if ← query.contains (py "from(bucket:") then return .dict t
      throw (.valueError ("painel " ++ toString i ++ " query não começa com from(bucket:)."))
  | _ => .error .attributeError

/-- The targets of a panel, where `p.get("targets")` is given. -/
def validateTargets (i : Nat) : Option PyValue → Except PyError (List PyValue)
  | some (.list (t :: ts)) => (t :: ts).mapM (validateTarget i)
  -- the items of a text and the keys of a dictionary have no `setdefault`
  | some (.str (_ :: _)) | some (.dict (_ :: _)) => .error .attributeError
  | some v =>
    if v.truthy then .error .typeError
    else .error (.valueError ("painel " ++ toString i ++ " sem 'targets'."))
  | none => .error (.valueError ("painel " ++ toString i ++ " sem 'targets'."))

def panelDefaults (i : Nat) : PyDict :=
  [(py "type", .str (py "timeseries")), (py "title", .str (py ("Panel " ++ toString i))),
    (py "datasource", influxSource),
    (py "gridPos", .dict [(py "h", .int 8), (py "w", .int 12), (py "x", .int 0),
      (py "y", .int ((i - 1) * 8))])]

/-- The id of the panel at position `i`, and what `seen_ids` holds of it. -/
def numberPanel (i : Nat) (seen : List PyKey) (p : PyDict) : Except PyError (PyDict × PyKey) :=
  match p.get (py "id") with
  | none => .ok (p.setItem (py "id") (.int i), .int i)
  | some v => do
    let key ← v.key
    if key ∈ seen then return (p.setItem (py "id") (.int i), .int i)
    return (p, key)

def validatePanel (i : Nat) (seen : List PyKey) : PyValue → Except PyError (PyValue × PyKey)
  | .dict p => do
    let (p, key) ← numberPanel i seen p
    let p := p.setDefaults (panelDefaults i)
    let targets ← validateTargets i (p.get (py "targets"))
    return (.dict (p.setItem (py "targets") (.list targets)), key)
  | _ => .error (.valueError ("painel " ++ toString i ++ " não é objeto."))

/-- The loop over the panels from position `i` on. -/
def validatePanels (i : Nat) (seen : List PyKey) : List PyValue → Except PyError (List PyValue)
  | [] => .ok []
  | p :: ps => do
    let (p, key) ← validatePanel i seen p
    let ps ← validatePanels (i + 1) (seen ++ [key]) ps
    return p :: ps

/-- `validate`: the dashboard it returns. -/
def validate (dash : PyValue) (name : PyStr) : Except PyError PyDict :=
  match dash with
  | .dict dash =>
    match PyDict.get dash (py "panels") with
    | some (.list (p :: ps)) => do
      let dash ← validateHead dash name
      let panels ← validatePanels 1 [] (p :: ps)
      return dash.setItem (py "panels") (.list panels)
    | _ => .error (.valueError "dashboard sem 'panels'.")
  | _ => .error (.valueError "dashboard não é objeto.")

/-! ## Dictionaries that have their keys -/

theorem ok_bind {ε α β : Type} (a : α) (f : α → Except ε β) : (Except.ok a >>= f) = f a := rfl

theorem bind_eq_ok {ε α β : Type} {x : Except ε α} {f : α → Except ε β} {b : β} :
    (x >>= f) = .ok b ↔ ∃ a, x = .ok a ∧ f a = .ok b := by
  cases x with
  | error e => exact ⟨nofun, nofun⟩
  | ok a => exact ⟨fun h => ⟨a, rfl, h⟩, fun ⟨_, ha, h⟩ => by cases ha; exact h⟩

section Dicts

variable {d defaults : PyDict} {key key' : PyStr} {v w : PyValue}

theorem get_cons (e : PyStr × PyValue) (d : PyDict) (key : PyStr) :
    PyDict.get (e :: d) key = if e.1 = key then some e.2 else d.get key := by
  rw [PyDict.get, List.lookup_cons]
  split
  · next hkey => rw [if_pos (beq_iff_eq.mp hkey).symm]
  · next hkey => exact (if_neg fun h => beq_eq_false_iff_ne.mp hkey h.symm).symm

theorem get_setItem : (d.setItem key v).get key' = if key = key' then some v else d.get key' := by
  induction d with
  | nil => exact get_cons (key, v) [] key'
  | cons e d ih =>
    rw [PyDict.setItem]
    split
    · next he =>
      rw [get_cons, get_cons, he]
      split <;> rfl
    · next he =>
      rw [get_cons, ih, get_cons]
      split
      · next he' => rw [if_neg fun h => he (he'.trans h.symm)]
      · rfl

/-- Storing what is there changes nothing. -/
theorem setItem_get (h : d.get key = some v) : d.setItem key v = d := by
  induction d with
  | nil => cases h
  | cons e d ih =>
    rw [get_cons] at h
    rw [PyDict.setItem]
    split
    · next he =>
      rw [if_pos he] at h
      cases h
      rw [← he]
    · next he =>
      rw [if_neg he] at h
      rw [ih h]

theorem get_without_ne (h : key ≠ key') : (d.without key).get key' = d.get key' := by
  induction d with
  | nil => rfl
  | cons e d ih =>
    rw [get_cons, PyDict.without, List.filter_cons]
    split
    · rw [get_cons]
      exact ite_congr rfl (fun _ => rfl) fun _ => ih
    · next he =>
      have hkey : e.1 = key := by simpa using he
      rw [if_neg fun h' => h (hkey.symm.trans h')]
      exact ih

theorem get_without_self : (d.without key).get key = none := by
  induction d with
  | nil => rfl
  | cons e d ih =>
    rw [PyDict.without, List.filter_cons]
    split
    · next he =>
      rw [get_cons, if_neg (by simpa using he)]
      exact ih
    · exact ih

theorem without_of_none (h : d.get key = none) : d.without key = d := by
  induction d with
  | nil => rfl
  | cons e d ih =>
    rw [get_cons] at h
    split at h
    · cases h
    · next he => rw [PyDict.without, List.filter_cons_of_pos (by simpa using he), ← PyDict.without, ih h]

theorem has_of_get (h : d.get key = some v) : d.has key := by
  rw [PyDict.has, h]
  rfl

theorem setDefault_of_has (h : d.has key) : d.setDefault key v = d := if_pos h

theorem has_setItem (h : d.has key') : (d.setItem key v).has key' := by
  rw [PyDict.has, get_setItem]
  split
  · rfl
  · exact h

theorem has_setDefault (h : d.has key' ∨ key = key') : (d.setDefault key v).has key' := by
  rw [PyDict.setDefault]
  split
  · next hkey => exact h.elim id fun heq => heq ▸ hkey
  · rcases h with h | rfl
    · exact has_setItem h
    · rw [PyDict.has, get_setItem, if_pos rfl]
      rfl

theorem get_setDefault_of_get (h : d.get key' = some w) : (d.setDefault key v).get key' = some w := by
  rw [PyDict.setDefault]
  split
  · exact h
  · next hkey =>
    rw [get_setItem, if_neg, h]
    rintro rfl
    exact hkey (has_of_get h)

theorem setDefaults_of_has (h : ∀ e ∈ defaults, d.has e.1) : d.setDefaults defaults = d := by
  induction defaults with
  | nil => rfl
  | cons e defaults ih =>
    rw [PyDict.setDefaults, List.foldl_cons, setDefault_of_has (h e List.mem_cons_self)]
    exact ih fun e' he' => h e' (List.mem_cons_of_mem e he')

theorem has_setDefaults (h : d.has key ∨ ∃ e ∈ defaults, e.1 = key) :
    (d.setDefaults defaults).has key := by
  induction defaults generalizing d with
  | nil => exact h.resolve_right nofun
  | cons e defaults ih =>
    refine ih ?_
    rcases h with h | ⟨e', he', rfl⟩
    · exact .inl (has_setDefault (.inl h))
    · rcases List.mem_cons.mp he' with rfl | he'
      · exact .inl (has_setDefault (.inr rfl))
      · exact .inr ⟨e', he', rfl⟩

theorem get_setDefaults_of_get (h : d.get key = some v) : (d.setDefaults defaults).get key = some v := by
  induction defaults generalizing d with
  | nil => exact h
  | cons e defaults ih => exact ih (get_setDefault_of_get h)

end Dicts

/-! ## What is complete stays as it is -/

section Tags

variable {tags tags' : PyValue} {t : PyStr} {ts : List PyStr}

theorem addTag_of_contains (h : tags.contains t = .ok true) : addTag tags t = .ok tags := by
  unfold addTag
  rw [h]
  rfl

theorem addTag_ok (h : addTag tags t = .ok tags') :
    tags'.contains t = .ok true ∧ ∀ u, tags.contains u = .ok true → tags'.contains u = .ok true := by
  obtain ⟨b, hb, h⟩ := bind_eq_ok.mp h
  cases b with
  | true =>
    cases h
    exact ⟨hb, fun _ hu => hu⟩
  | false =>
    cases tags with
    | list items =>
      cases h
      refine ⟨by simp [PyValue.contains], fun u hu => ?_⟩
      have hany := Except.ok.inj hu
      simp only [PyValue.contains, List.any_append, hany, Bool.true_or]
    | _ => cases h

theorem addTags_of_contains (h : ∀ t ∈ ts, tags.contains t = .ok true) :
    ts.foldlM addTag tags = .ok tags := by
  induction ts with
  | nil => rfl
  | cons t ts ih =>
    rw [List.foldlM_cons, addTag_of_contains (h t List.mem_cons_self), ok_bind]
    exact ih fun u hu => h u (List.mem_cons_of_mem t hu)

theorem addTags_ok (h : ts.foldlM addTag tags = .ok tags') :
    (∀ t ∈ ts, tags'.contains t = .ok true) ∧
      ∀ u, tags.contains u = .ok true → tags'.contains u = .ok true := by
  induction ts generalizing tags with
  | nil =>
    cases h
    exact ⟨nofun, fun _ hu => hu⟩
  | cons t ts ih =>
    rw [List.foldlM_cons] at h
    obtain ⟨more, hmore, h⟩ := bind_eq_ok.mp h
    obtain ⟨hin, hkeep⟩ := addTag_ok hmore
    obtain ⟨hrest, hlater⟩ := ih h
    refine ⟨fun u hu => ?_, fun u hu => hlater u (hkeep u hu)⟩
    rcases List.mem_cons.mp hu with rfl | hu
    · exact hlater u hin
    · exact hrest u hu

end Tags

/-- A dashboard that `validateHead` has been over. -/
structure Complete (dash : PyDict) (name : PyStr) : Prop where
  defaults : ∀ e ∈ dashDefaults name, dash.has e.1
  tags : ∃ tags, dash.get (py "tags") = some tags ∧
    ∀ t ∈ [py "nta", py "ai-gen"], tags.contains t = .ok true
  uid : dash.get (py "uid") = some (.str (dashUid name))
  version : dash.get (py "version") = none
  id : dash.get (py "id") = none

section Head

variable {dash out : PyDict} {name : PyStr} {v : PyValue}

theorem dashDefaults_keys {e : PyStr × PyValue} (he : e ∈ dashDefaults name) :
    py "version" ≠ e.1 ∧ py "id" ≠ e.1 := by
  have hkeys : ∀ key ∈ [py "title", py "schemaVersion", py "editable", py "time", py "refresh",
      py "tags"], py "version" ≠ key ∧ py "id" ≠ key := by decide
  exact hkeys e.1 (List.mem_map_of_mem he)

theorem Complete.setPanels (h : Complete dash name) :
    Complete (dash.setItem (py "panels") v) name := by
  obtain ⟨tags, hget, htags⟩ := h.tags
  refine ⟨fun e he => has_setItem (h.defaults e he), ⟨tags, ?_, htags⟩, ?_, ?_, ?_⟩
  · rw [get_setItem, if_neg (by decide), hget]
  · rw [get_setItem, if_neg (by decide), h.uid]
  · rw [get_setItem, if_neg (by decide), h.version]
  · rw [get_setItem, if_neg (by decide), h.id]

theorem validateHead_complete (h : validateHead dash name = .ok out) : Complete out name := by
  obtain ⟨tags, htags, h⟩ := bind_eq_ok.mp h
  cases h
  have hpop : ∀ {d : PyDict} {key : PyStr}, py "version" ≠ key → py "id" ≠ key →
      ((d.without (py "version")).without (py "id")).get key = d.get key := fun hversion hid => by
    rw [get_without_ne hid, get_without_ne hversion]
  constructor
  · intro e he
    obtain ⟨hversion, hid⟩ := dashDefaults_keys he
    rw [PyDict.has, hpop hversion hid]
    exact has_setItem (has_setItem (has_setDefaults (.inr ⟨e, he, rfl⟩)))
  · refine ⟨tags, ?_, (addTags_ok htags).1⟩
    rw [hpop (by decide) (by decide), get_setItem, if_neg (by decide), get_setItem, if_pos rfl]
  · rw [hpop (by decide) (by decide), get_setItem, if_pos rfl]
  · rw [get_without_ne (by decide), get_without_self]
  · exact get_without_self

theorem validateHead_of_complete (h : Complete dash name) : validateHead dash name = .ok dash := by
  obtain ⟨tags, hget, htags⟩ := h.tags
  rw [validateHead, setDefaults_of_has h.defaults, hget]
  dsimp only [Option.getD_some]
  rw [addTags_of_contains htags, ok_bind, setItem_get hget, setItem_get h.uid,
    without_of_none h.version, without_of_none h.id]
  rfl

end Head

/-- A target that `validateTarget` has been over. -/
structure CompleteTarget (t : PyDict) : Prop where
  defaults : ∀ e ∈ targetDefaults, t.has e.1
  query : ∃ query, t.get (py "query") = some query ∧ query.truthy = true ∧
    query.contains (py "from(bucket:") = .ok true

section Panels

variable {i : Nat} {seen : List PyKey} {p q : PyDict} {key : PyKey} {v w : PyValue}

theorem validateTarget_complete (h : validateTarget i v = .ok w) :
    ∃ t, w = .dict t ∧ CompleteTarget t := by
  cases v with
  | dict t =>
    rw [validateTarget] at h
    cases hquery : (PyDict.setDefaults t targetDefaults).get (py "query") with
    | none => simp [hquery] at h
    | some query =>
      cases htruthy : query.truthy with
      | false =>
        simp only [hquery, htruthy, Bool.not_false, if_true] at h
        cases h
      | true =>
        simp only [hquery, htruthy, Bool.not_true, Bool.false_eq_true, if_false] at h
        obtain ⟨b, hb, h⟩ := bind_eq_ok.mp h
        cases b with
        | false => cases h
        | true =>
          cases h
          exact ⟨_, rfl, fun e he => has_setDefaults (.inr ⟨e, he, rfl⟩), query, hquery, htruthy, hb⟩
  | _ => cases h

theorem validateTarget_of_complete {t : PyDict} (h : CompleteTarget t) :
    validateTarget i (.dict t) = .ok (.dict t) := by
  obtain ⟨query, hquery, htruthy, hb⟩ := h.query
  rw [validateTarget, setDefaults_of_has h.defaults]
  simp only [hquery, htruthy, hb, Bool.not_true, Bool.false_eq_true, if_false, ok_bind, if_true]
  rfl

theorem mapM_again {α ε : Type} {f : α → Except ε α} (hf : ∀ {x y : α}, f x = .ok y → f y = .ok y)
    {xs ys : List α} (h : xs.mapM f = .ok ys) : ys.mapM f = .ok ys ∧ (xs = [] ↔ ys = []) := by
  induction xs generalizing ys with
  | nil =>
    cases h
    exact ⟨rfl, Iff.rfl⟩
  | cons x xs ih =>
    rw [List.mapM_cons] at h
    obtain ⟨y, hy, h⟩ := bind_eq_ok.mp h
    obtain ⟨ys, hys, h⟩ := bind_eq_ok.mp h
    cases h
    rw [List.mapM_cons, hf hy, ok_bind, (ih hys).1, ok_bind]
    exact ⟨rfl, nofun, nofun⟩

theorem validateTargets_again {targets : Option PyValue} {ts : List PyValue}
    (h : validateTargets i targets = .ok ts) : validateTargets i (some (.list ts)) = .ok ts := by
  have hlist : ∃ t₀ ts₀, targets = some (.list (t₀ :: ts₀)) := by
    unfold validateTargets at h
    split at h
    · next t₀ ts₀ => exact ⟨t₀, ts₀, rfl⟩
    · cases h
    · cases h
    · split at h <;> cases h
    · cases h
  obtain ⟨t₀, ts₀, rfl⟩ := hlist
  obtain ⟨hagain, hnil⟩ := mapM_again (fun hy => by
    obtain ⟨t, rfl, ht⟩ := validateTarget_complete hy
    exact validateTarget_of_complete ht) h
  cases ts with
  | nil => exact absurd (hnil.mpr rfl) nofun
  | cons t ts => exact hagain

/-- The id of a panel behind `numberPanel`. -/
structure Numbered (i : Nat) (seen : List PyKey) (p : PyDict) (key : PyKey) (v : PyValue) : Prop where
  get : p.get (py "id") = some v
  hash : v.key = .ok key
  place : key ∈ seen → v = .int i

theorem numberPanel_numbered (h : numberPanel i seen p = .ok (q, key)) :
    ∃ v, Numbered i seen q key v := by
  have hset : (p.setItem (py "id") (.int i)).get (py "id") = some (.int i) := by
    rw [get_setItem, if_pos rfl]
  unfold numberPanel at h
  split at h
  · cases h
    exact ⟨.int i, hset, rfl, fun _ => rfl⟩
  · next v hget =>
    obtain ⟨key', hkey, h⟩ := bind_eq_ok.mp h
    split at h
    · cases h
      exact ⟨.int i, hset, rfl, fun _ => rfl⟩
    · next hnew =>
      cases h
      exact ⟨v, hget, hkey, fun hseen => absurd hseen hnew⟩

theorem numberPanel_of_numbered (h : Numbered i seen p key v) :
    numberPanel i seen p = .ok (p, key) := by
  rw [numberPanel, h.get]
  dsimp only
  rw [h.hash, ok_bind]
  split
  · next hseen =>
    have hv := h.place hseen
    have hkey := h.hash
    rw [hv] at hkey
    cases hkey
    rw [setItem_get (h.get.trans (congrArg some hv))]
    rfl
  · rfl

theorem validatePanel_cases (h : validatePanel i seen v = .ok (w, key)) :
    ∃ p q targets, v = .dict p ∧ numberPanel i seen p = .ok (q, key) ∧
      validateTargets i ((q.setDefaults (panelDefaults i)).get (py "targets")) = .ok targets ∧
        w = .dict ((q.setDefaults (panelDefaults i)).setItem (py "targets") (.list targets)) := by
  cases v with
  | dict p =>
    obtain ⟨⟨q, key'⟩, hq, h⟩ := bind_eq_ok.mp h
    obtain ⟨targets, ht, h⟩ := bind_eq_ok.mp h
    cases h
    exact ⟨p, q, targets, rfl, hq, ht, rfl⟩
  | _ => cases h

theorem Numbered.completed {targets : PyValue} (h : Numbered i seen q key v) :
    Numbered i seen ((q.setDefaults (panelDefaults i)).setItem (py "targets") targets) key v := by
  refine ⟨?_, h.hash, h.place⟩
  rw [get_setItem, if_neg (by decide), get_setDefaults_of_get h.get]

theorem validatePanel_again (h : validatePanel i seen v = .ok (w, key)) :
    validatePanel i seen w = .ok (w, key) := by
  obtain ⟨p, q, targets, rfl, hq, ht, rfl⟩ := validatePanel_cases h
  obtain ⟨id, hid⟩ := numberPanel_numbered hq
  have hdefaults : ∀ e ∈ panelDefaults i,
      ((q.setDefaults (panelDefaults i)).setItem (py "targets") (.list targets)).has e.1 :=
    fun e he => has_setItem (has_setDefaults (.inr ⟨e, he, rfl⟩))
  have hget : ((q.setDefaults (panelDefaults i)).setItem (py "targets") (.list targets)).get
      (py "targets") = some (.list targets) := by rw [get_setItem, if_pos rfl]
  rw [validatePanel, numberPanel_of_numbered hid.completed, ok_bind]
  dsimp only
  rw [setDefaults_of_has hdefaults, hget, validateTargets_again ht, ok_bind, setItem_get hget]
  rfl

theorem validatePanels_again {ps qs : List PyValue} (h : validatePanels i seen ps = .ok qs) :
    validatePanels i seen qs = .ok qs := by
  induction ps generalizing i seen qs with
  | nil =>
    cases h
    rfl
  | cons p ps ih =>
    obtain ⟨⟨p', key⟩, hp, h⟩ := bind_eq_ok.mp h
    obtain ⟨ps', hps, h⟩ := bind_eq_ok.mp h
    cases h
    rw [validatePanels, validatePanel_again hp, ok_bind]
    dsimp only
    rw [ih hps]
    rfl

end Panels

theorem validate_cases {dash out : PyDict} {name : PyStr} (h : validate (.dict dash) name = .ok out) :
    ∃ p ps more panels, dash.get (py "panels") = some (.list (p :: ps)) ∧
      validateHead dash name = .ok more ∧ validatePanels 1 [] (p :: ps) = .ok panels ∧
        out = more.setItem (py "panels") (.list panels) := by
  unfold validate at h
  dsimp only at h
  split at h
  · next p ps hget =>
    obtain ⟨more, hmore, h⟩ := bind_eq_ok.mp h
    obtain ⟨panels, hpanels, h⟩ := bind_eq_ok.mp h
    cases h
    exact ⟨p, ps, more, panels, hget, hmore, hpanels, rfl⟩
  · cases h

/-- What `validate` returns, it returns again. -/
theorem validate_again {dash out : PyDict} {name : PyStr} (h : validate (.dict dash) name = .ok out) :
    validate (.dict out) name = .ok out := by
  obtain ⟨p, ps, more, panels, _, hmore, hpanels, rfl⟩ := validate_cases h
  have hget : (more.setItem (py "panels") (.list panels)).get (py "panels") = some (.list panels) := by
    rw [get_setItem, if_pos rfl]
  cases panels with
  | nil =>
    obtain ⟨_, _, hpanels⟩ := bind_eq_ok.mp hpanels
    obtain ⟨_, _, hpanels⟩ := bind_eq_ok.mp hpanels
    cases hpanels
  | cons p' ps' =>
    unfold validate
    dsimp only
    rw [hget]
    dsimp only
    rw [validateHead_of_complete (validateHead_complete hmore).setPanels, ok_bind,
      validatePanels_again hpanels, ok_bind, setItem_get hget]
    rfl

/-! ## Ids -/

/-- The list under `panels`. -/
def panelsOf (dash : PyDict) : List PyValue :=
  match dash.get (py "panels") with
  | some (.list ps) => ps
  | _ => []

/-- The id of a panel that has one. -/
def panelId : PyValue → Option PyValue
  | .dict p => PyDict.get p (py "id")
  | _ => none

def PyValue.toInt : PyValue → Option Int
  | .int n => some n
  | _ => Option.none

/-- The id of a panel, where it is an integer. -/
def intId (p : PyValue) : Option Int := (panelId p).bind PyValue.toInt

def panelIds (dash : PyDict) : List (Option Int) := (panelsOf dash).map intId

/-- Every id that a panel comes with is an integer. -/
def IntegerIds (ps : List PyValue) : Prop :=
  ∀ p ∈ ps, ∀ v, panelId p = some v → ∃ n, v = .int n

/-- The position of the panel at index `i`. -/
def position (i : Nat) : Int := i + 1

/-- The ids that come out are distinct integers, an id that only one panel came with is kept, and
`validate` changes nothing more. -/
structure IdsRepaired (dash out : PyDict) (name : PyStr) : Prop where
  distinct : ∃ ids : List Int, panelIds out = ids.map some ∧ ids.Nodup
  kept : ∀ (i : Nat) (n : Int), (panelIds dash)[i]? = some (some n) →
    (panelIds dash).count (some n) = 1 → (panelIds out)[i]? = some (some n)
  again : validate (.dict out) name = .ok out

open Renumber

theorem position_injective : Function.Injective position :=
  fun _ _ h => Int.ofNat.inj (Int.add_left_inj 1 |>.mp h)

theorem int_injective : Function.Injective PyKey.int := fun _ _ h => PyKey.int.inj h

section Ids

variable {given : List Int} {p q : PyDict} {v w : PyValue} {key : PyKey}

/-- A panel gets its position without an id, or with one that was seen. -/
theorem numberPanel_id (hint : ∀ v, p.get (py "id") = some v → ∃ n, v = .int n)
    (h : numberPanel (given.length + 1) (given.map PyKey.int) p = .ok (q, key)) :
    q.get (py "id") =
        some (.int (pick position given ((p.get (py "id")).bind PyValue.toInt))) ∧
      key = PyKey.int (pick position given ((p.get (py "id")).bind PyValue.toInt)) := by
  have hset : (p.setItem (py "id") (.int (position given.length))).get (py "id") =
      some (.int (position given.length)) := by rw [get_setItem, if_pos rfl]
  cases hget : p.get (py "id") with
  | none =>
    simp only [numberPanel, hget] at h
    cases h
    exact ⟨hset, rfl⟩
  | some v =>
    obtain ⟨n, rfl⟩ := hint v hget
    simp only [numberPanel, hget, PyValue.key, ok_bind, List.mem_map_of_injective int_injective]
      at h
    rw [Option.bind_some, PyValue.toInt, pick]
    split at h
    · next hseen =>
      cases h
      rw [if_pos hseen]
      exact ⟨hset, rfl⟩
    · next hnew =>
      cases h
      rw [if_neg hnew]
      exact ⟨hget, rfl⟩

theorem validatePanel_id (hint : ∀ v', panelId v = some v' → ∃ n, v' = .int n)
    (h : validatePanel (given.length + 1) (given.map PyKey.int) v = .ok (w, key)) :
    panelId w = some (.int (pick position given (intId v))) ∧
      key = PyKey.int (pick position given (intId v)) := by
  obtain ⟨p, q, targets, rfl, hq, _, rfl⟩ := validatePanel_cases h
  obtain ⟨hget, hkey⟩ := numberPanel_id hint hq
  refine ⟨?_, hkey⟩
  rw [panelId, get_setItem, if_neg (by decide)]
  exact get_setDefaults_of_get hget

/-- The pass over the panels renumbers as `Renumber.assign` does. -/
theorem validatePanels_ids {ps qs : List PyValue} (hint : IntegerIds ps)
    (h : validatePanels (given.length + 1) (given.map PyKey.int) ps = .ok qs) :
    qs.map intId = (assign position given (ps.map intId)).map some := by
  induction ps generalizing given qs with
  | nil =>
    cases h
    rfl
  | cons p ps ih =>
    obtain ⟨⟨q, key⟩, hp, h⟩ := bind_eq_ok.mp h
    obtain ⟨qs, hps, h⟩ := bind_eq_ok.mp h
    cases h
    obtain ⟨hid, rfl⟩ := validatePanel_id (hint p List.mem_cons_self) hp
    have hrest := @ih (given ++ [pick position given (intId p)]) qs
      (fun p' hp' => hint p' (List.mem_cons_of_mem p hp'))
      (by rw [List.length_append, List.map_append]; exact hps)
    rw [List.map_cons, List.map_cons, assign, List.map_cons, hrest, intId, hid]
    rfl

end Ids

section Validate

variable {dash out : PyDict} {name : PyStr}

theorem panelIds_assign (hint : IntegerIds (panelsOf dash))
    (h : validate (.dict dash) name = .ok out) :
    panelIds out = (assign position [] (panelIds dash)).map some := by
  obtain ⟨p, ps, more, panels, hget, _, hpanels, rfl⟩ := validate_cases h
  have hin : panelsOf dash = p :: ps := by rw [panelsOf, hget]
  have hout : panelsOf (more.setItem (py "panels") (.list panels)) = panels := by
    rw [panelsOf, get_setItem, if_pos rfl]
  rw [panelIds, panelIds, hin, hout]
  exact validatePanels_ids (hin ▸ hint) hpanels

/-- The repair is right exactly when the position that a renumbered panel gets is not the id of a
panel before it and not the id of a single panel. -/
theorem panelIds_iff (h : validate (.dict dash) name = .ok out)
    (hint : IntegerIds (panelsOf dash)) :
    IdsRepaired dash out name ↔ Clean position (panelIds dash) := by
  have hids := panelIds_assign hint h
  rw [← assign_good_iff position_injective]
  constructor
  · rintro ⟨⟨ids, hsome, hnodup⟩, hkept, _⟩
    have hsame : ids = assign position [] (panelIds dash) :=
      List.map_injective_iff.mpr (fun _ _ => Option.some.inj) (hsome.symm.trans hids)
    refine ⟨hsame ▸ hnodup, fun i n hi hcount => ?_⟩
    have hget := hkept i n hi hcount
    rw [hids, List.getElem?_map, Option.map_eq_some_iff] at hget
    obtain ⟨m, hm, hmn⟩ := hget
    rw [hm, hmn]
  · rintro ⟨hnodup, hkept⟩
    refine ⟨⟨_, hids, hnodup⟩, fun i n hi hcount => ?_, validate_again h⟩
    rw [hids, List.getElem?_map, hkept i n hi hcount]
    rfl

end Validate

/-- A panel with a query, and with this id where there is one. -/
def panelWith (id : Option Int) : PyValue :=
  .dict ((id.map fun n => (py "id", PyValue.int n)).toList ++
    [(py "targets", .list [.dict [(py "query", .str (py "from(bucket: \"traffic\")"))]])])

def dashboardWith (ids : List (Option Int)) : PyDict :=
  [(py "panels", .list (ids.map panelWith))]

theorem dashboardWith_integer (ids : List (Option Int)) :
    IntegerIds (panelsOf (dashboardWith ids)) := by
  intro p hp v hv
  obtain ⟨id, _, rfl⟩ := List.mem_map.mp hp
  cases id with
  | none => cases hv
  | some n =>
    cases hv
    exact ⟨n, rfl⟩

theorem panelIds_iff_missing :
    ∃ out, validate (.dict (dashboardWith [some 10, none, some 20])) (py "rede") = .ok out ∧
      panelIds out = [some 10, some 2, some 20] ∧
        IdsRepaired (dashboardWith [some 10, none, some 20]) out (py "rede") := by
  refine ⟨_, rfl, rfl, (panelIds_iff rfl (dashboardWith_integer _)).mpr fun i hr => ?_⟩
  have hfree : ∀ i < 3, (∀ k < i, [some 10, none, some 20][k]? ≠ some (some (position i))) ∧
      [some 10, none, some 20].count (some (position i)) ≠ 1 := by decide
  exact hfree i (renumbered_lt hr)

/-- Behind a panel with id 2 the second panel gets that id too, and before a panel with id 1 the
first one takes it. -/
theorem missingId_clashes :
    (∃ out, validate (.dict (dashboardWith [some 2, none])) (py "rede") = .ok out ∧
      panelIds out = [some 2, some 2] ∧
        ¬ IdsRepaired (dashboardWith [some 2, none]) out (py "rede")) ∧
    ∃ out, validate (.dict (dashboardWith [none, some 1])) (py "rede") = .ok out ∧
      panelIds out = [some 1, some 2] ∧
        ¬ IdsRepaired (dashboardWith [none, some 1]) out (py "rede") := by
  refine ⟨⟨_, rfl, rfl, fun h => ?_⟩, _, rfl, rfl, fun h => ?_⟩
  · obtain ⟨ids, hids, hnodup⟩ := h.distinct
    have htwice : [some (2 : Int), some 2] = ids.map some := hids
    have hinj : Function.Injective (some : Int → Option Int) := fun _ _ => Option.some.inj
    have hdistinct := hnodup.map hinj
    rw [← htwice] at hdistinct
    exact absurd hdistinct (by decide)
  · have hkept : ([some 1, some 2] : List (Option Int))[1]? = some (some 1) :=
      h.kept 1 1 rfl rfl
    cases hkept

end TrafficAnalyzer
