import CqlClient.Proofs.Outcome
import CqlClient.Wire

/-!
# Readers and the bytes they consume

`Reads r front a` says that `r` makes `a` of the bytes `front` and leaves all that follows them, so
that a writer and a reader can be compared piece by piece:

* `Reads.bind` and `reads_mapM`: readers in a row read what was written in a row;
* `outcome_bind` and `Reads.outcome`: the same for a whole byte string;
* `reads_raw` and `reads_uint8`: bytes as they are.
-/

namespace CqlClient

variable {ε δ α β : Type}

/-- From bytes that begin with `front`, `r` reads `a` and leaves the rest. -/
def Reads (r : Reader ε α) (front : Bytes) (a : α) : Prop :=
  ∀ rest : Bytes, r (front ++ rest) = .ok a rest

/-! ## Putting readers together -/

theorem reads_pure (a : α) : Reads (pure a : Reader ε α) [] a := fun _ => rfl

theorem Reads.bind {r : Reader ε α} {f : α → Reader ε β} {front back : Bytes} {a : α} {b : β}
    (hr : Reads r front a) (hf : Reads (f a) back b) : Reads (r >>= f) (front ++ back) b := by
  intro rest
  show EStateM.bind r f (front ++ back ++ rest) = _
  rw [List.append_assoc, EStateM.bind, hr (back ++ rest)]
  exact hf rest

/-- As `Reads.bind`, the second reader needing no bytes. -/
theorem Reads.bind_nil {r : Reader ε α} {f : α → Reader ε β} {front : Bytes} {a : α} {b : β}
    (hr : Reads r front a) (hf : Reads (f a) [] b) : Reads (r >>= f) front b := by
  have h := hr.bind hf
  rwa [List.append_nil] at h

theorem Reads.map {r : Reader ε α} {front : Bytes} {a : α} (g : α → β) (hr : Reads r front a) :
    Reads (r >>= fun a => pure (g a)) front (g a) := by
  intro rest
  show EStateM.bind r _ (front ++ rest) = _
  rw [EStateM.bind, hr rest]
  rfl

theorem Reads.mapError {r : Reader ε α} {front : Bytes} {a : α} (g : ε → δ)
    (hr : Reads r front a) : Reads (r.mapError g) front a := by
  intro rest
  show EStateM.adaptExcept g r (front ++ rest) = _
  rw [EStateM.adaptExcept, hr rest]

theorem reads_ofExcept {result : Except ε α} {a : α} (h : result = .ok a) :
    Reads (Reader.ofExcept result) [] a := by
  subst h
  exact reads_pure a

/-- Readers that each read what was written for their own item read all of it, one by one. -/
theorem reads_mapM {read : β → Reader ε α} {write : β → Except δ Bytes} {value : β → α}
    {items : List β} {parts : List Bytes}
    (h : ∀ item ∈ items, ∀ part, write item = .ok part → Reads (read item) part (value item))
    (hw : items.mapM write = .ok parts) :
    Reads (items.mapM read) parts.flatten (items.map value) := by
  induction items generalizing parts with
  | nil =>
    rw [mapM_nil_eq_ok.mp hw]
    exact reads_pure []
  | cons item items ih =>
    obtain ⟨part, tail, hpart, htail, rfl⟩ := mapM_cons_eq_ok.mp hw
    have hhead := h item (List.mem_cons_self ..) part hpart
    have hrest := ih (fun b hb => h b (List.mem_cons_of_mem _ hb)) htail
    rw [List.mapM_cons, List.flatten_cons]
    exact hhead.bind (hrest.map _)

/-- Reading a number of items is reading one for each of as many things. -/
theorem times_length (r : Reader ε α) (items : List β) :
    Reader.times items.length r = items.mapM fun _ => r := by
  induction items with
  | nil => rfl
  | cons item items ih => simp only [List.length_cons, Reader.times_succ, List.mapM_cons, ih]

/-! ## Readers that have succeeded -/

theorem Reader.bind_eq_ok {r : Reader ε α} {f : α → Reader ε β} {bytes rest : Bytes} {b : β} :
    (r >>= f) bytes = .ok b rest ↔
      ∃ a middle, r bytes = .ok a middle ∧ f a middle = .ok b rest := by
  show EStateM.bind r f bytes = _ ↔ _
  rw [EStateM.bind]
  cases hr : r bytes with
  | error fault left => simp
  | ok a middle =>
    constructor
    · intro hf
      exact ⟨a, middle, rfl, hf⟩
    · rintro ⟨_, _, hmade, hf⟩
      cases hmade
      exact hf

theorem Reader.mapError_eq_ok {r : Reader ε α} {g : ε → δ} {bytes rest : Bytes} {a : α} :
    r.mapError g bytes = .ok a rest ↔ r bytes = .ok a rest := by
  show EStateM.adaptExcept g r bytes = _ ↔ _
  rw [EStateM.adaptExcept]
  cases r bytes <;> simp

theorem Reader.mapError_eq_error {r : Reader ε α} {g : ε → δ} {bytes left : Bytes} {e : δ} :
    r.mapError g bytes = .error e left ↔ ∃ fault, r bytes = .error fault left ∧ g fault = e := by
  show EStateM.adaptExcept g r bytes = _ ↔ _
  rw [EStateM.adaptExcept]
  cases r bytes with
  | ok a rest => simp
  | error fault rest =>
    simp only [EStateM.Result.error.injEq]
    constructor
    · rintro ⟨hfault, hrest⟩
      exact ⟨fault, ⟨rfl, hrest⟩, hfault⟩
    · rintro ⟨fault, ⟨rfl, hrest⟩, hfault⟩
      exact ⟨hfault, hrest⟩

theorem Reader.ofExcept_eq_ok {result : Except ε α} {bytes rest : Bytes} {a : α} :
    Reader.ofExcept result bytes = .ok a rest ↔ result = .ok a ∧ bytes = rest := by
  cases result with
  | error fault => exact iff_of_false nofun nofun
  | ok a => simp [Reader.ofExcept, pure, EStateM.pure]

theorem Reader.outcome_eq_ok {r : Reader ε α} {bytes : Bytes} {a : α} :
    r.outcome bytes = .ok a ↔ ∃ rest, r bytes = .ok a rest := by
  rw [Reader.outcome]
  cases r bytes <;> simp

/-- Every item that readers in a row have made was made by its own reader. -/
theorem made_of_mapM {read : β → Reader ε α} {items : List β} {bytes rest : Bytes} {made : List α}
    (h : items.mapM read bytes = .ok made rest) :
    items.length = made.length ∧
      ∀ pair ∈ items.zip made, ∃ front back, read pair.1 front = .ok pair.2 back := by
  induction items generalizing bytes made with
  | nil =>
    cases h
    simp
  | cons item items ih =>
    rw [List.mapM_cons] at h
    obtain ⟨a, middle, ha, h⟩ := Reader.bind_eq_ok.mp h
    obtain ⟨as, last, has, h⟩ := Reader.bind_eq_ok.mp h
    cases h
    obtain ⟨hlen, heach⟩ := ih has
    refine ⟨by simp [hlen], ?_⟩
    rw [List.zip_cons_cons, List.forall_mem_cons]
    exact ⟨⟨bytes, middle, ha⟩, heach⟩

theorem made_of_times {r : Reader ε α} {n : Nat} {bytes rest : Bytes} {made : List α}
    (h : Reader.times n r bytes = .ok made rest) :
    made.length = n ∧ ∀ a ∈ made, ∃ front back, r front = .ok a back := by
  induction n generalizing bytes made with
  | zero =>
    cases h
    simp
  | succ n ih =>
    rw [Reader.times_succ] at h
    obtain ⟨a, middle, ha, h⟩ := Reader.bind_eq_ok.mp h
    obtain ⟨as, last, has, h⟩ := Reader.bind_eq_ok.mp h
    cases h
    obtain ⟨hlen, heach⟩ := ih has
    exact ⟨by simp [hlen], List.forall_mem_cons.mpr ⟨⟨bytes, middle, ha⟩, heach⟩⟩

/-! ## Readers that fail -/

/-- Whatever a reader fails by is of the kind. -/
def Reader.FaultsIn (kind : ε → Prop) (r : Reader ε α) : Prop :=
  ∀ bytes left fault, r bytes = .error fault left → kind fault

section Faults

variable {kind : ε → Prop} {r : Reader ε α}

theorem Reader.faultsIn_pure (a : α) : Reader.FaultsIn kind (pure a) := nofun

theorem Reader.faultsIn_throw {fault : ε} (h : kind fault) :
    Reader.FaultsIn kind (throw fault : Reader ε α) := by
  rintro _ _ _ ⟨⟩
  exact h

theorem Reader.FaultsIn.bind {f : α → Reader ε β} (hr : Reader.FaultsIn kind r)
    (hf : ∀ a, Reader.FaultsIn kind (f a)) : Reader.FaultsIn kind (r >>= f) := by
  intro bytes left fault h
  change EStateM.bind r f bytes = _ at h
  rw [EStateM.bind] at h
  cases hread : r bytes with
  | ok a middle =>
    rw [hread] at h
    exact hf a _ _ _ h
  | error e middle =>
    rw [hread] at h
    cases h
    exact hr _ _ _ hread

theorem Reader.faultsIn_mapError {g : δ → ε} (h : ∀ fault, kind (g fault)) (r : Reader δ α) :
    Reader.FaultsIn kind (r.mapError g) := by
  intro bytes left fault hfailed
  obtain ⟨cause, -, rfl⟩ := Reader.mapError_eq_error.mp hfailed
  exact h cause

theorem Reader.faultsIn_ofExcept {result : Except ε α} (h : CqlClient.FaultsIn kind result) :
    Reader.FaultsIn kind (Reader.ofExcept result) := by
  cases result with
  | ok a => exact Reader.faultsIn_pure a
  | error fault => exact Reader.faultsIn_throw (h fault rfl)

theorem Reader.FaultsIn.times (hr : Reader.FaultsIn kind r) (n : Nat) :
    Reader.FaultsIn kind (Reader.times n r) := by
  induction n with
  | zero => exact Reader.faultsIn_pure []
  | succ n ih =>
    rw [Reader.times_succ]
    exact hr.bind fun a => ih.bind fun as => Reader.faultsIn_pure (a :: as)

theorem Reader.FaultsIn.mapM {read : β → Reader ε α} {items : List β}
    (h : ∀ item ∈ items, Reader.FaultsIn kind (read item)) :
    Reader.FaultsIn kind (items.mapM read) := by
  induction items with
  | nil => exact Reader.faultsIn_pure []
  | cons item items ih =>
    obtain ⟨hfirst, hrest⟩ := List.forall_mem_cons.mp h
    rw [List.mapM_cons]
    exact hfirst.bind fun a => (ih hrest).bind fun as => Reader.faultsIn_pure (a :: as)

theorem Reader.FaultsIn.outcome (hr : Reader.FaultsIn kind r) (bytes : Bytes) :
    CqlClient.FaultsIn kind (r.outcome bytes) := by
  rw [Reader.outcome]
  cases hread : r bytes with
  | ok a rest => exact faultsIn_ok a
  | error fault left => exact faultsIn_error (hr _ _ _ hread)

end Faults

/-! ## Whole byte strings -/

theorem outcome_bind {r : Reader ε α} {f : α → Reader ε β} {front : Bytes} {a : α}
    (hr : Reads r front a) (back : Bytes) :
    (r >>= f).outcome (front ++ back) = (f a).outcome back := by
  have h : (r >>= f) (front ++ back) = f a back := by
    show EStateM.bind r f (front ++ back) = _
    rw [EStateM.bind, hr back]
  rw [Reader.outcome, h, Reader.outcome]

theorem Reads.outcome {r : Reader ε α} {front : Bytes} {a : α} (hr : Reads r front a) :
    r.outcome front = .ok a := by
  have h := hr []
  rw [List.append_nil] at h
  rw [Reader.outcome, h]

/-! ## Numbers -/

theorem toNat_ofNat_of_lt {width n : Nat} (h : n < 256 ^ width) :
    Bytes.toNat (Bytes.ofNat width n) = n := by
  rw [Bytes.toNat_ofNat, Nat.mod_eq_of_lt h]

/-- The most significant byte comes first. -/
theorem ofNat_succ (width n : Nat) :
    Bytes.ofNat (width + 1) n = UInt8.ofNat (n / 256 ^ width) :: Bytes.ofNat width n := by
  induction width generalizing n with
  | zero => simp [Bytes.ofNat]
  | succ width ih =>
    show Bytes.ofNat (width + 1) (n / 256) ++ [UInt8.ofNat n] = _
    rw [ih, Nat.div_div_eq_div_mul, ← Nat.pow_succ']
    rfl

theorem toUInt16_ofUInt16 (n : UInt16) : Bytes.toUInt16 (Bytes.ofUInt16 n) = n := by
  rw [Bytes.toUInt16, Bytes.ofUInt16, toNat_ofNat_of_lt n.toNat_lt, UInt16.ofNat_toNat]

theorem toUInt32_ofUInt32 (n : UInt32) : Bytes.toUInt32 (Bytes.ofUInt32 n) = n := by
  rw [Bytes.toUInt32, Bytes.ofUInt32, toNat_ofNat_of_lt n.toNat_lt, UInt32.ofNat_toNat]

theorem toUInt64_ofUInt64 (n : UInt64) : Bytes.toUInt64 (Bytes.ofUInt64 n) = n := by
  rw [Bytes.toUInt64, Bytes.ofUInt64, toNat_ofNat_of_lt n.toNat_lt, UInt64.ofNat_toNat]

theorem toInt8_ofInt8 (n : Int8) : Bytes.toInt8 (Bytes.ofInt8 n) = n := by
  rw [Bytes.toInt8, Bytes.ofInt8, toNat_ofNat_of_lt n.toUInt8.toNat_lt, UInt8.ofNat_toNat,
    Int8.toInt8_toUInt8]

theorem toInt16_ofInt16 (n : Int16) : Bytes.toInt16 (Bytes.ofInt16 n) = n := by
  show (Bytes.toUInt16 (Bytes.ofUInt16 n.toUInt16)).toInt16 = n
  rw [toUInt16_ofUInt16, Int16.toInt16_toUInt16]

theorem toInt32_ofInt32 (n : Int32) : Bytes.toInt32 (Bytes.ofInt32 n) = n := by
  show (Bytes.toUInt32 (Bytes.ofUInt32 n.toUInt32)).toInt32 = n
  rw [toUInt32_ofUInt32, Int32.toInt32_toUInt32]

theorem toInt64_ofInt64 (n : Int64) : Bytes.toInt64 (Bytes.ofInt64 n) = n := by
  show (Bytes.toUInt64 (Bytes.ofUInt64 n.toUInt64)).toInt64 = n
  rw [toUInt64_ofUInt64, Int64.toInt64_toUInt64]

theorem toNat_uint16_ofNat {n : Nat} (h : n ≤ Wire.maxUInt16) : (UInt16.ofNat n).toNat = n := by
  rw [UInt16.toNat_ofNat']
  exact Nat.mod_eq_of_lt (Nat.lt_succ_of_le h)

theorem ofInt32_ofNat {n : Nat} (h : n ≤ Wire.maxInt32) :
    Bytes.ofInt32 (Int32.ofNat n) = Bytes.ofNat 4 n := by
  have hn : n < 2 ^ 32 := by simp only [Wire.maxInt32] at h; omega
  have e : (Int32.ofNat n).toUInt32.toNat = n := by
    show (UInt32.ofNat n).toNat = n
    rw [UInt32.toNat_ofNat', Nat.mod_eq_of_lt hn]
  rw [Bytes.ofInt32, e]

theorem toInt_int32_ofNat {n : Nat} (h : n ≤ Wire.maxInt32) : (Int32.ofNat n).toInt = n :=
  Int32.toInt_ofNat_of_lt (by simp only [Wire.maxInt32] at h; omega)

theorem not_int32_ofNat_neg {n : Nat} (h : n ≤ Wire.maxInt32) : ¬ Int32.ofNat n < 0 := by
  rw [Int32.lt_iff_toInt_lt, toInt_int32_ofNat h]
  show ¬ (n : Int) < 0
  omega

/-! ## The notations of frame bodies -/

theorem reads_raw {bytes : Bytes} {n : Nat} (h : bytes.length = n) :
    Reads (Wire.raw n) bytes bytes := by
  subst h
  intro rest
  show Reader.exactly _ _ _ = _
  rw [Reader.exactly, Bytes.split?_append]

theorem reads_uint8 (b : UInt8) : Reads Wire.uint8 [b] b := by
  have h := (@reads_raw [b] 1 rfl).map fun bytes => UInt8.ofNat bytes.toNat
  have e : UInt8.ofNat (Bytes.toNat [b]) = b := by simp [Bytes.toNat]
  rwa [e] at h

end CqlClient
