import Mathlib.Data.List.Nodup
import CqlClient.Proofs.Keyspace.Statement

/-!
# Keyspaces as they are asked for

A new keyspace is asked for by a name and by settings, one after the other. `AsAsked` says what has
been asked for in terms of the settings alone: each of them counts until a later one contradicts it.

* `asAsked_built`: the keyspace is the one that has been asked for, its datacenters sorted by name;
* `built_eq_of_perm`: settings that are each about something else may come in any order;
* `statement_faithful`: the statement asks for that keyspace and for nothing else.
-/

namespace CqlClient

namespace Replication

/-- The datacenters that have a factor of their own. -/
def datacenters : Replication → List (String × UInt32)
  | simple _ => []
  | topology datacenters => datacenters

/-- The factor of the simple strategy. -/
def simpleFactor : Replication → Option UInt32
  | simple factor => some factor
  | topology _ => none

def SortedByName (dcs : List (String × UInt32)) : Prop := dcs.Pairwise fun a b => a.1 < b.1

variable {name other : String} {factor factor' : UInt32} {dcs : List (String × UInt32)}

/-! ## Insertion -/

theorem insert_of_lt (rest : List (String × UInt32)) (h : name < other) :
    insert name factor ((other, factor') :: rest) =
      (name, factor) :: (other, factor') :: rest := if_pos h

theorem insert_self (rest : List (String × UInt32)) :
    insert name factor ((name, factor') :: rest) = (name, factor) :: rest := by
  rw [insert, if_neg (String.lt_irrefl name), if_pos rfl]

theorem insert_of_gt (rest : List (String × UInt32)) (h : other < name) :
    insert name factor ((other, factor') :: rest) =
      (other, factor') :: insert name factor rest := by
  rw [insert, if_neg (String.lt_asymm h), if_neg (String.ne_of_lt h).symm]

theorem name_cases (name other : String) : name < other ∨ name = other ∨ other < name := by
  by_cases hlt : name < other
  · exact .inl hlt
  · by_cases heq : name = other
    · exact .inr (.inl heq)
    · exact .inr (.inr (Std.lt_of_le_of_ne (String.not_lt.mp hlt) (Ne.symm heq)))

theorem lookup_cons_eq (dc : String) :
    ((name, factor) :: dcs).lookup dc = if dc = name then some factor else dcs.lookup dc := by
  rw [List.lookup_cons]
  by_cases h : dc = name
  · rw [if_pos h, beq_iff_eq.mpr h]
  · rw [if_neg h, beq_eq_false_iff_ne.mpr h]

theorem lookup_insert (name : String) (factor : UInt32) (dcs : List (String × UInt32))
    (dc : String) :
    (insert name factor dcs).lookup dc = if dc = name then some factor else dcs.lookup dc := by
  induction dcs with
  | nil => exact lookup_cons_eq dc
  | cons first rest ih =>
    obtain ⟨other, factor'⟩ := first
    obtain h | rfl | h := name_cases name other
    · rw [insert_of_lt rest h, lookup_cons_eq]
    · rw [insert_self, lookup_cons_eq, lookup_cons_eq]
      by_cases hdc : dc = name
      · rw [if_pos hdc, if_pos hdc]
      · rw [if_neg hdc, if_neg hdc, if_neg hdc]
    · rw [insert_of_gt rest h, lookup_cons_eq, lookup_cons_eq, ih]
      by_cases hdc : dc = name
      · rw [if_pos hdc, if_pos hdc, if_neg (hdc ▸ (String.ne_of_lt h).symm)]
      · rw [if_neg hdc, if_neg hdc]

theorem mem_insert {dc : String × UInt32} (h : dc ∈ insert name factor dcs) :
    dc = (name, factor) ∨ dc ∈ dcs := by
  induction dcs with
  | nil => exact .inl (List.mem_singleton.mp h)
  | cons first rest ih =>
    obtain ⟨other, factor'⟩ := first
    obtain hlt | rfl | hlt := name_cases name other
    · rw [insert_of_lt rest hlt] at h
      exact List.mem_cons.mp h
    · rw [insert_self] at h
      exact (List.mem_cons.mp h).imp_right (List.mem_cons_of_mem _)
    · rw [insert_of_gt rest hlt] at h
      obtain rfl | hrest := List.mem_cons.mp h
      · exact .inr (List.mem_cons_self ..)
      · exact (ih hrest).imp_right (List.mem_cons_of_mem _)

theorem SortedByName.insert (name : String) (factor : UInt32) (h : SortedByName dcs) :
    SortedByName (Replication.insert name factor dcs) := by
  induction dcs with
  | nil => exact List.pairwise_singleton _ _
  | cons first rest ih =>
    obtain ⟨other, factor'⟩ := first
    obtain ⟨hfirst, hrest⟩ := List.pairwise_cons.mp h
    obtain hlt | rfl | hlt := name_cases name other
    · rw [insert_of_lt rest hlt]
      refine List.pairwise_cons.mpr ⟨fun dc hdc => ?_, h⟩
      obtain rfl | hdc := List.mem_cons.mp hdc
      · exact hlt
      · exact String.lt_trans hlt (hfirst dc hdc)
    · rw [insert_self]
      exact List.pairwise_cons.mpr ⟨hfirst, hrest⟩
    · rw [insert_of_gt rest hlt]
      refine List.pairwise_cons.mpr ⟨fun dc hdc => ?_, ih hrest⟩
      obtain rfl | hdc := mem_insert hdc
      · exact hlt
      · exact hfirst dc hdc

theorem insert_comm_of_lt (h : name < other) :
    insert name factor (insert other factor' dcs) =
      insert other factor' (insert name factor dcs) := by
  induction dcs with
  | nil => exact (insert_of_lt [] h).trans (insert_of_gt [] h).symm
  | cons first rest ih =>
    obtain ⟨third, factor''⟩ := first
    obtain hthird | rfl | hthird := name_cases name third
    · -- The lesser name comes first, wherever the other one goes.
      rw [insert_of_lt rest hthird, insert_of_gt _ h]
      obtain hother | rfl | hother := name_cases other third
      · rw [insert_of_lt rest hother, insert_of_lt _ h]
      · rw [insert_self, insert_of_lt _ h]
      · rw [insert_of_gt rest hother, insert_of_lt _ hthird]
    · rw [insert_self, insert_of_gt _ h, insert_of_gt _ h, insert_self]
    · have hother := String.lt_trans hthird h
      rw [insert_of_gt rest hthird, insert_of_gt rest hother, insert_of_gt _ hthird,
        insert_of_gt _ hother, ih]

/-- Datacenters of different names may be inserted in either order, even into a list that is not
sorted. -/
theorem insert_comm (h : name ≠ other) :
    insert name factor (insert other factor' dcs) =
      insert other factor' (insert name factor dcs) := by
  obtain hlt | rfl | hlt := name_cases name other
  · exact insert_comm_of_lt hlt
  · exact absurd rfl h
  · exact (insert_comm_of_lt hlt).symm

theorem withDatacenter_eq (r : Replication) (name : String) (factor : UInt32) :
    r.withDatacenter name factor = topology (insert name factor r.datacenters) := by
  cases r with
  | simple _ => rfl
  | topology _ => rfl

/-- Of several factors of a datacenter, the last one counts. -/
theorem lookup_foldl_insert (pairs dcs : List (String × UInt32)) (dc : String) :
    (pairs.foldl (fun done pair => insert pair.1 pair.2 done) dcs).lookup dc =
      (pairs.reverse.lookup dc).or (dcs.lookup dc) := by
  induction pairs generalizing dcs with
  | nil => rfl
  | cons pair pairs ih =>
    rw [List.foldl_cons, ih, lookup_insert, List.reverse_cons, List.lookup_append, lookup_cons_eq,
      Option.or_assoc]
    by_cases h : dc = pair.1
    · rw [if_pos h, if_pos h, Option.some_or]
    · rw [if_neg h, if_neg h, List.lookup_nil, Option.none_or]

theorem SortedByName.foldl_insert (pairs : List (String × UInt32)) (h : SortedByName dcs) :
    SortedByName (pairs.foldl (fun done pair => Replication.insert pair.1 pair.2 done) dcs) := by
  induction pairs generalizing dcs with
  | nil => exact h
  | cons pair pairs ih => exact ih (h.insert pair.1 pair.2)

end Replication

/-! ## Settings -/

/-- What is said about a new keyspace. -/
inductive Setting where
  | simple (factor : UInt32)
  | topology (datacenters : List (String × UInt32))
  | datacenter (name : String) (factor : UInt32)
  | ifNotExists
  | durableWrites (durable : Bool)
  deriving DecidableEq

namespace Setting

inductive Subject where
  | strategy
  | datacenter (name : String)
  | existence
  | durability
  deriving DecidableEq

def subject : Setting → Subject
  | simple _ | topology _ => .strategy
  | datacenter name _ => .datacenter name
  | ifNotExists => .existence
  | durableWrites _ => .durability

def durable? : Setting → Option (Option Bool)
  | durableWrites durable => some (some durable)
  | _ => none

/-- The factor of the simple strategy, if that is the strategy the setting asks for. -/
def simple? : Setting → Option (Option UInt32)
  | simple factor => some (some factor)
  | topology _ | datacenter _ _ => some none
  | _ => none

/-- The factor of a datacenter, if there is to be one. -/
def factor? (dc : String) : Setting → Option (Option UInt32)
  | simple _ => some none
  | topology pairs => some (pairs.reverse.lookup dc)
  | datacenter name factor => if dc = name then some (some factor) else none
  | _ => none

/-- What the last of the settings says that says anything about it. -/
def latest {α : Type} (said : Setting → Option α) (settings : List Setting) : Option α :=
  settings.reverse.findSome? said

theorem getD_latest_concat {α : Type} (said : Setting → Option α) (settings : List Setting)
    (s : Setting) (initial : α) : (latest said (settings ++ [s])).getD initial =
      (said s).getD ((latest said settings).getD initial) := by
  rw [latest, List.reverse_append, List.reverse_singleton, List.singleton_append,
    List.findSome?_cons]
  cases said s with
  | none => rfl
  | some a => rfl

end Setting

namespace NewKeyspace

def set (k : NewKeyspace) : Setting → NewKeyspace
  | .simple factor => { k with replication := .simple factor }
  | .topology datacenters => { k with replication := .ofDatacenters datacenters }
  | .datacenter name factor => { k with replication := k.replication.withDatacenter name factor }
  | .ifNotExists => { k with ifNotExists := true }
  | .durableWrites durable => { k with durableWrites := some durable }

/-- The keyspace of a name, with the settings made one after the other. -/
def built (name : String) (settings : List Setting) : NewKeyspace :=
  settings.foldl set (named name)

open Setting (latest)

/-- The keyspace is what the settings ask for, each of them until a later one contradicts it. -/
structure AsAsked (name : String) (settings : List Setting) (k : NewKeyspace) : Prop where
  name_eq : k.name = name
  ifNotExists_iff : k.ifNotExists = true ↔ .ifNotExists ∈ settings
  durableWrites_eq : k.durableWrites = (latest Setting.durable? settings).getD none
  /-- One copy with the simple strategy if nothing else is asked for. -/
  simpleFactor_eq : k.replication.simpleFactor =
    (latest Setting.simple? settings).getD (some 1)
  lookup_eq : ∀ dc, k.replication.datacenters.lookup dc =
    (latest (Setting.factor? dc) settings).getD none
  sorted : Replication.SortedByName k.replication.datacenters

theorem asAsked_named (name : String) : AsAsked name [] (named name) where
  name_eq := rfl
  ifNotExists_iff := by simp [named]
  durableWrites_eq := rfl
  simpleFactor_eq := rfl
  lookup_eq _ := rfl
  sorted := List.Pairwise.nil

section Set

variable (k : NewKeyspace) (s : Setting)

theorem set_name : (k.set s).name = k.name := by
  cases s <;> rfl

theorem set_ifNotExists :
    (k.set s).ifNotExists = true ↔ k.ifNotExists = true ∨ .ifNotExists = s := by
  cases s <;> simp [set]

theorem set_durableWrites : (k.set s).durableWrites = s.durable?.getD k.durableWrites := by
  cases s <;> rfl

theorem set_simpleFactor :
    (k.set s).replication.simpleFactor = s.simple?.getD k.replication.simpleFactor := by
  cases s with
  | datacenter name factor =>
    rw [set, Replication.withDatacenter_eq]
    rfl
  | _ => rfl

theorem lookup_set (dc : String) : (k.set s).replication.datacenters.lookup dc =
    (s.factor? dc).getD (k.replication.datacenters.lookup dc) := by
  cases s with
  | topology pairs => exact (Replication.lookup_foldl_insert pairs [] dc).trans Option.or_none
  | datacenter name factor =>
    rw [set, Replication.withDatacenter_eq]
    refine (Replication.lookup_insert ..).trans ?_
    rw [Setting.factor?]
    by_cases h : dc = name
    · rw [if_pos h, if_pos h, Option.getD_some]
    · rw [if_neg h, if_neg h, Option.getD_none]
  | _ => rfl

theorem sorted_set (h : Replication.SortedByName k.replication.datacenters) :
    Replication.SortedByName (k.set s).replication.datacenters := by
  cases s with
  | simple factor => exact List.Pairwise.nil
  | topology pairs => exact Replication.SortedByName.foldl_insert pairs List.Pairwise.nil
  | datacenter name factor =>
    rw [set, Replication.withDatacenter_eq]
    exact h.insert name factor
  | _ => exact h

end Set

variable {name : String} {settings : List Setting} {k : NewKeyspace}

theorem AsAsked.set (h : AsAsked name settings k) (s : Setting) :
    AsAsked name (settings ++ [s]) (k.set s) where
  name_eq := (set_name k s).trans h.name_eq
  ifNotExists_iff := by
    rw [set_ifNotExists, h.ifNotExists_iff, List.mem_append, List.mem_singleton]
  durableWrites_eq := by
    rw [set_durableWrites, h.durableWrites_eq, Setting.getD_latest_concat]
  simpleFactor_eq := by
    rw [set_simpleFactor, h.simpleFactor_eq, Setting.getD_latest_concat]
  lookup_eq dc := by
    rw [lookup_set, h.lookup_eq dc, Setting.getD_latest_concat]
  sorted := sorted_set k s h.sorted

theorem AsAsked.foldl (h : AsAsked name settings k) (further : List Setting) :
    AsAsked name (settings ++ further) (further.foldl NewKeyspace.set k) := by
  induction further generalizing settings k with
  | nil =>
    rw [List.append_nil]
    exact h
  | cons s further ih =>
    rw [List.append_cons]
    exact ih (h.set s)

theorem asAsked_built (name : String) (settings : List Setting) :
    AsAsked name settings (built name settings) :=
  (asAsked_named name).foldl settings

/-! ## The order of settings -/

/-- A strategy overrules the factors before it; whatever else is set, two settings on different
subjects may change places. -/
theorem set_comm {s t : Setting} (k : NewKeyspace) (hne : s.subject ≠ t.subject)
    (hs : s.subject ≠ .strategy) (ht : t.subject ≠ .strategy) :
    (k.set s).set t = (k.set t).set s := by
  cases s with
  | simple _ | topology _ => exact absurd rfl hs
  | datacenter name factor =>
    cases t with
    | simple _ | topology _ => exact absurd rfl ht
    | datacenter other factor' =>
      have hname : other ≠ name := fun h => hne (congrArg Setting.Subject.datacenter h.symm)
      simp only [set, Replication.withDatacenter_eq, Replication.datacenters]
      rw [Replication.insert_comm hname]
    | ifNotExists | durableWrites _ => rfl
  | ifNotExists =>
    cases t with
    | simple _ | topology _ => exact absurd rfl ht
    | ifNotExists => exact absurd rfl hne
    | datacenter _ _ | durableWrites _ => rfl
  | durableWrites durable =>
    cases t with
    | simple _ | topology _ => exact absurd rfl ht
    | durableWrites _ => exact absurd rfl hne
    | datacenter _ _ | ifNotExists => rfl

theorem built_eq_of_perm (name : String) (before after : List Setting) {added added' : List Setting}
    (hdistinct : (added.map Setting.subject).Nodup)
    (hkept : .strategy ∉ added.map Setting.subject) (hperm : added.Perm added') :
    built name (before ++ added ++ after) = built name (before ++ added' ++ after) := by
  have hcomm : ∀ s ∈ added, ∀ t ∈ added, ∀ k : NewKeyspace,
      (k.set s).set t = (k.set t).set s := by
    intro s hs t ht k
    by_cases heq : s.subject = t.subject
    · rw [List.inj_on_of_nodup_map hdistinct hs ht heq]
    · refine set_comm k heq ?_ ?_
      · exact fun h => hkept (List.mem_map.mpr ⟨s, hs, h⟩)
      · exact fun h => hkept (List.mem_map.mpr ⟨t, ht, h⟩)
  rw [built, built, List.foldl_append, List.foldl_append, List.foldl_append, List.foldl_append,
    hperm.foldl_eq' hcomm]

/-! ## What is asked of the server -/

/-- For a plain name there is a statement, whose tokens are those of the keyspace asked for and of
no other one, in whichever order the datacenters were added; for any other name there is none. -/
theorem statement_faithful (name : String) (settings : List Setting) :
    AsAsked name settings (built name settings) ∧
    (Keyspace.IsPlainName name → ∃ text, (built name settings).statement = .ok text ∧
      Cql.lex text.toList = some (built name settings).tokens) ∧
    (¬ Keyspace.IsPlainName name → (built name settings).statement = .error ⟨name⟩) ∧
    (∀ (other : NewKeyspace) (text : String), (built name settings).statement = .ok text →
      other.statement = .ok text → other = built name settings) ∧
    (∀ before added added' after : List Setting, settings = before ++ added ++ after →
      (added.map Setting.subject).Nodup → .strategy ∉ added.map Setting.subject →
      added.Perm added' → built name (before ++ added' ++ after) = built name settings) := by
  have hasked := asAsked_built name settings
  refine ⟨hasked, fun hname => ?_, fun hname => ?_, fun other text h h' => ?_, ?_⟩
  · rw [← hasked.name_eq] at hname
    exact statement_of_isPlainName hname
  · rw [← hasked.name_eq] at hname
    exact (statement_of_not_isPlainName hname).trans (by rw [hasked.name_eq])
  · exact eq_of_statement h' h
  · rintro before added added' after rfl hdistinct hkept hperm
    exact (built_eq_of_perm name before after hdistinct hkept hperm).symm

/-- Names of datacenters that look like the text around them. -/
def quotedNames : List Setting :=
  [.ifNotExists, .datacenter "it's" 3, .datacenter "a', 'b': 1\x7d; --" 2, .durableWrites false]

theorem statement_faithful_quotedNames :
    (∃ text, (built "ks" quotedNames).statement = .ok text ∧ Cql.lex text.toList = some [
      .word "CREATE", .word "KEYSPACE", .word "IF", .word "NOT", .word "EXISTS",
      .quoted .name "ks", .word "WITH", .word "replication", .symbol '=',
      .symbol '\x7b',
      .quoted .string "class", .symbol ':', .quoted .string "NetworkTopologyStrategy",
      .symbol ',', .quoted .string "a', 'b': 1\x7d; --", .symbol ':', .number 2,
      .symbol ',', .quoted .string "it's", .symbol ':', .number 3,
      .symbol '\x7d',
      .word "AND", .word "durable_writes", .symbol '=', .word "false"] ∧
      ∀ other : NewKeyspace, other.statement = .ok text → other = built "ks" quotedNames) ∧
    (built "k s" quotedNames).statement = .error ⟨"k s"⟩ ∧
    built "ks" quotedNames.reverse = built "ks" quotedNames := by
  have hname : Keyspace.IsPlainName "ks" := Keyspace.isName_iff.mp (by decide)
  have hspace : ¬ Keyspace.IsPlainName "k s" := fun h =>
    absurd (Keyspace.isName_iff.mpr h) (by decide)
  obtain ⟨-, hplain, -, hunique, horder⟩ := statement_faithful "ks" quotedNames
  obtain ⟨text, htext, hlex⟩ := hplain hname
  refine ⟨⟨text, htext, hlex.trans ?_, fun other => hunique other text htext⟩, ?_, ?_⟩
  · rfl
  · exact (statement_faithful "k s" quotedNames).2.2.1 hspace
  · exact horder [] _ _ [] rfl (by decide) (by decide) (List.reverse_perm quotedNames).symm

end NewKeyspace

end CqlClient
