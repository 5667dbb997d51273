import CqlClient.Proofs.Reads
import Mathlib.Data.List.Induction

/-!
# Readers and the front of their input

`Reads` says what a reader makes of a front. Here is what it makes of less than that, and of which
fronts it makes anything:

* `NeedsAll r front a e`: `r` reads `a` from the front, and fails with `e` where its end is missing;
* `FailsOn r front e`: `r` fails with `e`, whatever follows the front;
* `Accepts r P`: whenever `r` succeeds, the front it has consumed and what it made of it are as `P`
  says;
* `needsAll_uint32`, `reads_int32`, `accepts_string` and so on: the notations of `Wire`.
-/

namespace CqlClient

variable {ε δ α β : Type}

/-- From `front` the reader reads `a`; on every shorter part of it, the reader fails with `e`. -/
structure NeedsAll (r : Reader ε α) (front : Bytes) (a : α) (e : ε) : Prop where
  reads : Reads r front a
  cut : ∀ part : Bytes, part <+: front → part ≠ front → ∃ left, r part = .error e left

/-- The reader fails with `e` on all that begins with `front`. -/
def FailsOn (r : Reader ε α) (front : Bytes) (e : ε) : Prop :=
  ∀ rest, ∃ left, r (front ++ rest) = .error e left

/-- Whenever the reader succeeds, the front it consumes and its result satisfy `P`. -/
def Accepts (r : Reader ε α) (P : Bytes → α → Prop) : Prop :=
  ∀ bytes a rest, r bytes = .ok a rest → ∃ front, bytes = front ++ rest ∧ P front a

/-! ## Putting readers together -/

theorem bind_of_ok {r : Reader ε α} {f : α → Reader ε β} {bytes rest : Bytes} {a : α}
    (h : r bytes = .ok a rest) : (r >>= f) bytes = f a rest := by
  show EStateM.bind r f bytes = _
  rw [EStateM.bind, h]

theorem bind_of_error {r : Reader ε α} {f : α → Reader ε β} {bytes rest : Bytes} {e : ε}
    (h : r bytes = .error e rest) : (r >>= f) bytes = .error e rest := by
  show EStateM.bind r f bytes = _
  rw [EStateM.bind, h]

theorem needsAll_pure (a : α) (e : ε) : NeedsAll (pure a : Reader ε α) [] a e := by
  refine ⟨reads_pure a, fun part hpart hne => ?_⟩
  exact absurd (List.prefix_nil.mp hpart) hne

/-- What lacks the end of two parts lacks the end of the first, or is the first with something that
lacks the end of the second. -/
theorem NeedsAll.bind {r : Reader ε α} {f : α → Reader ε β} {front back : Bytes} {a : α} {b : β}
    {e : ε} (hr : NeedsAll r front a e) (hf : NeedsAll (f a) back b e) :
    NeedsAll (r >>= f) (front ++ back) b e := by
  refine ⟨hr.reads.bind hf.reads, fun part hpart hne => ?_⟩
  have hcases : (part <+: front ∧ part ≠ front) ∨ ∃ tail, part = front ++ tail := by
    rcases List.prefix_or_prefix_of_prefix hpart (List.prefix_append front back) with h | ⟨tail, h⟩
    · by_cases heq : part = front
      · exact .inr ⟨[], by rw [heq, List.append_nil]⟩
      · exact .inl ⟨h, heq⟩
    · exact .inr ⟨tail, h.symm⟩
  rcases hcases with ⟨hfront, hshort⟩ | ⟨tail, rfl⟩
  · obtain ⟨left, hleft⟩ := hr.cut part hfront hshort
    exact ⟨left, bind_of_error hleft⟩
  · have htail : tail <+: back := (List.prefix_append_right_inj front).mp hpart
    obtain ⟨left, hleft⟩ := hf.cut tail htail fun heq => hne (heq ▸ rfl)
    exact ⟨left, by rw [bind_of_ok (hr.reads tail), hleft]⟩

/-- As `NeedsAll.bind`, the second reader needing no bytes. -/
theorem NeedsAll.bind_nil {r : Reader ε α} {f : α → Reader ε β} {front : Bytes} {a : α} {b : β}
    {e : ε} (hr : NeedsAll r front a e) (hf : NeedsAll (f a) [] b e) :
    NeedsAll (r >>= f) front b e := by
  have h := hr.bind hf
  rwa [List.append_nil] at h

theorem NeedsAll.map {r : Reader ε α} {front : Bytes} {a : α} {e : ε} (g : α → β)
    (hr : NeedsAll r front a e) : NeedsAll (r >>= fun a => pure (g a)) front (g a) e :=
  hr.bind_nil (needsAll_pure (g a) e)

theorem NeedsAll.mapError {r : Reader ε α} {front : Bytes} {a : α} {e : ε} (g : ε → δ)
    (hr : NeedsAll r front a e) : NeedsAll (r.mapError g) front a (g e) := by
  refine ⟨hr.reads.mapError g, fun part hpart hne => ?_⟩
  obtain ⟨left, hleft⟩ := hr.cut part hpart hne
  refine ⟨left, ?_⟩
  show EStateM.adaptExcept g r part = _
  rw [EStateM.adaptExcept, hleft]

theorem adaptExcept_bind {σ : Type} (g : ε → δ) (first : EStateM ε σ α)
    (next : α → EStateM ε σ β) :
    (first >>= next).adaptExcept g =
      first.adaptExcept g >>= fun a => (next a).adaptExcept g := by
  funext s
  simp only [EStateM.adaptExcept, bind, EStateM.bind]
  cases first s <;> rfl

theorem needsAll_mapM (read : β → Reader ε α) (value : β → α) {e : ε} {items : List β}
    {parts : List Bytes} (hlen : items.length = parts.length)
    (h : ∀ pair ∈ items.zip parts, NeedsAll (read pair.1) pair.2 (value pair.1) e) :
    NeedsAll (items.mapM read) parts.flatten (items.map value) e := by
  induction items generalizing parts with
  | nil =>
    obtain rfl : parts = [] := by simpa using hlen.symm
    exact needsAll_pure [] e
  | cons item items ih =>
    cases parts with
    | nil => cases hlen
    | cons part parts =>
      rw [List.zip_cons_cons, List.forall_mem_cons] at h
      rw [List.mapM_cons, List.flatten_cons]
      exact h.1.bind ((ih (Nat.succ.inj hlen) h.2).map _)

theorem FailsOn.bind {r : Reader ε α} {front : Bytes} {e : ε} (h : FailsOn r front e)
    (f : α → Reader ε β) (back : Bytes) : FailsOn (r >>= f) (front ++ back) e := by
  intro rest
  rw [List.append_assoc]
  obtain ⟨left, hleft⟩ := h (back ++ rest)
  exact ⟨left, bind_of_error hleft⟩

theorem FailsOn.map {r : Reader ε α} {front : Bytes} {e : ε} (h : FailsOn r front e) (g : α → β) :
    FailsOn (r >>= fun a => pure (g a)) front e := by
  have hmapped := h.bind (fun a => pure (g a)) []
  rwa [List.append_nil] at hmapped

theorem Reads.failsOn {r : Reader ε α} {f : α → Reader ε β} {front back : Bytes} {a : α} {e : ε}
    (hr : Reads r front a) (hf : FailsOn (f a) back e) : FailsOn (r >>= f) (front ++ back) e := by
  intro rest
  rw [List.append_assoc, bind_of_ok (hr (back ++ rest))]
  exact hf rest

/-- Readers in a row fail if one of them does and all before it read their own part. -/
theorem failsOn_mapM (read : β → Reader ε α) (value : β → α) {e : ε} {items : List β}
    {parts : List Bytes}
    (h : ∀ pair ∈ items.zip parts,
      Reads (read pair.1) pair.2 (value pair.1) ∨ FailsOn (read pair.1) pair.2 e)
    (hfails : ∃ pair ∈ items.zip parts, FailsOn (read pair.1) pair.2 e) :
    FailsOn (items.mapM read) parts.flatten e := by
  induction items generalizing parts with
  | nil => simp at hfails
  | cons item items ih =>
    cases parts with
    | nil => simp at hfails
    | cons part parts =>
      rw [List.zip_cons_cons, List.forall_mem_cons] at h
      simp only [List.zip_cons_cons, List.mem_cons, exists_eq_or_imp] at hfails
      rw [List.mapM_cons, List.flatten_cons]
      rcases h.1 with hreads | hfirst
      · rcases hfails with hfirst | hlater
        · exact hfirst.bind _ _
        · exact hreads.failsOn ((ih h.2 hlater).map (value item :: ·))
      · exact hfirst.bind _ _

theorem accepts_pure {P : Bytes → α → Prop} {a : α} (h : P [] a) :
    Accepts (pure a : Reader ε α) P := by
  intro bytes b rest hread
  cases hread
  exact ⟨[], rfl, h⟩

theorem accepts_throw {P : Bytes → α → Prop} (e : ε) : Accepts (throw e : Reader ε α) P := by
  intro bytes b rest hread
  cases hread

theorem Accepts.mono {P Q : Bytes → α → Prop} {r : Reader ε α} (hr : Accepts r P)
    (h : ∀ front a, P front a → Q front a) : Accepts r Q := by
  intro bytes a rest hread
  obtain ⟨front, hsplit, hP⟩ := hr _ _ _ hread
  exact ⟨front, hsplit, h front a hP⟩

theorem Accepts.bind {P : Bytes → α → Prop} {Q : Bytes → β → Prop} {r : Reader ε α}
    {f : α → Reader ε β} (hr : Accepts r P)
    (hf : ∀ front a, P front a → Accepts (f a) fun back b => Q (front ++ back) b) :
    Accepts (r >>= f) Q := by
  intro bytes b rest hread
  obtain ⟨a, middle, ha, hb⟩ := Reader.bind_eq_ok.mp hread
  obtain ⟨front, rfl, hP⟩ := hr _ _ _ ha
  obtain ⟨back, rfl, hQ⟩ := hf front a hP _ _ _ hb
  exact ⟨front ++ back, (List.append_assoc ..).symm, hQ⟩

theorem Accepts.map {P : Bytes → α → Prop} {Q : Bytes → β → Prop} {r : Reader ε α} {g : α → β}
    (hr : Accepts r P) (hg : ∀ front a, P front a → Q front (g a)) :
    Accepts (r >>= fun a => pure (g a)) Q := by
  refine hr.bind fun front a hP => accepts_pure ?_
  rw [List.append_nil]
  exact hg front a hP

theorem Accepts.mapError {P : Bytes → α → Prop} {r : Reader ε α} (g : ε → δ) (hr : Accepts r P) :
    Accepts (r.mapError g) P := by
  intro bytes a rest hread
  exact hr _ _ _ (Reader.mapError_eq_ok.mp hread)

/-- Items that are read in a row are each read from a front of their own. -/
theorem Accepts.times {P : Bytes → α → Prop} {r : Reader ε α} (hr : Accepts r P) (n : Nat) :
    Accepts (Reader.times n r) fun front as =>
      as.length = n ∧ ∃ parts : List Bytes, front = parts.flatten ∧
        as.length = parts.length ∧ ∀ pair ∈ as.zip parts, P pair.2 pair.1 := by
  induction n with
  | zero => exact accepts_pure ⟨rfl, [], rfl, rfl, by simp⟩
  | succ n ih =>
    rw [Reader.times_succ]
    refine hr.bind fun front a ha => ih.map ?_
    rintro _ as ⟨rfl, parts, rfl, hlen, heach⟩
    refine ⟨rfl, front :: parts, rfl, by simp [hlen], ?_⟩
    rw [List.zip_cons_cons, List.forall_mem_cons]
    exact ⟨ha, heach⟩

/-! ## Numbers and texts -/

theorem ofNat_toNat (bytes : Bytes) : Bytes.ofNat bytes.length bytes.toNat = bytes := by
  induction bytes using List.reverseRecOn with
  | nil => rfl
  | append_singleton bytes b ih =>
    have hb : b.toNat < 256 := b.toNat_lt
    have hdiv : (Bytes.toNat bytes * 256 + b.toNat) / 256 = Bytes.toNat bytes := by omega
    have hlow : UInt8.ofNat (Bytes.toNat bytes * 256 + b.toNat) = b := by
      apply UInt8.toNat_inj.mp
      rw [UInt8.toNat_ofNat']
      omega
    rw [List.length_append, List.length_singleton, Bytes.toNat_append_singleton, Bytes.ofNat, hdiv,
      hlow, ih]

theorem toNat_lt (bytes : Bytes) : bytes.toNat < 256 ^ bytes.length := by
  rw [← ofNat_toNat bytes, Bytes.toNat_ofNat, Bytes.length_ofNat]
  exact Nat.mod_lt _ (Nat.pow_pos (by omega))

theorem ofUInt16_toUInt16 {bytes : Bytes} (h : bytes.length = 2) :
    Bytes.ofUInt16 bytes.toUInt16 = bytes := by
  have hlt : bytes.toNat < 2 ^ 16 := by simpa [h] using toNat_lt bytes
  rw [Bytes.ofUInt16, Bytes.toUInt16, UInt16.toNat_ofNat', Nat.mod_eq_of_lt hlt, ← h, ofNat_toNat]

theorem needsAll_raw {bytes : Bytes} {n : Nat} (h : bytes.length = n) :
    NeedsAll (Wire.raw n) bytes bytes .endOfInput := by
  refine ⟨reads_raw h, fun part hpart hne => ⟨part, ?_⟩⟩
  have hshort : part.length ≠ n := fun hlen => hne (hpart.eq_of_length (hlen.trans h.symm))
  have hle := hpart.length_le
  have hsplit : Bytes.split? n part = none := by
    rw [Bytes.split?, List.take_of_length_le (by omega), if_neg hshort]
  rw [Wire.raw, Reader.exactly, hsplit]

theorem accepts_raw (n : Nat) :
    Accepts (Wire.raw n) fun front bytes => front = bytes ∧ bytes.length = n := by
  intro bytes front rest hread
  rw [Wire.raw, Reader.exactly] at hread
  split at hread
  · rename_i first last hsplit
    cases hread
    rw [Bytes.split?] at hsplit
    split at hsplit
    · rename_i hlen
      cases hsplit
      exact ⟨_, (List.take_append_drop n bytes).symm, rfl, hlen⟩
    · cases hsplit
  · cases hread

theorem raw_eq_error {n : Nat} {bytes left : Bytes} {e : WireFault}
    (h : Wire.raw n bytes = .error e left) : e = .endOfInput := by
  rw [Wire.raw, Reader.exactly] at h
  split at h
  · cases h
  · cases h
    rfl

theorem raw_of_short {n : Nat} {bytes : Bytes} (h : bytes.length < n) :
    Wire.raw n bytes = .error .endOfInput bytes := by
  have htake : (bytes.take n).length ≠ n := by
    rw [List.length_take]
    omega
  rw [Wire.raw, Reader.exactly, Bytes.split?, if_neg htake]

theorem needsAll_uint16 (n : UInt16) :
    NeedsAll Wire.uint16 (Bytes.ofUInt16 n) n .endOfInput := by
  have h := (needsAll_raw (Bytes.length_ofNat 2 n.toNat)).map Bytes.toUInt16
  rwa [show Bytes.toUInt16 (Bytes.ofNat 2 n.toNat) = n from toUInt16_ofUInt16 n] at h

theorem needsAll_uint32 (n : UInt32) :
    NeedsAll Wire.uint32 (Bytes.ofUInt32 n) n .endOfInput := by
  have h := (needsAll_raw (Bytes.length_ofNat 4 n.toNat)).map Bytes.toUInt32
  rwa [show Bytes.toUInt32 (Bytes.ofNat 4 n.toNat) = n from toUInt32_ofUInt32 n] at h

theorem needsAll_int16 (n : Int16) : NeedsAll Wire.int16 (Bytes.ofInt16 n) n .endOfInput := by
  have h := (needsAll_raw (Bytes.length_ofNat 2 n.toUInt16.toNat)).map Bytes.toInt16
  rwa [show Bytes.toInt16 (Bytes.ofNat 2 n.toUInt16.toNat) = n from toInt16_ofInt16 n] at h

theorem needsAll_int32 (n : Int32) : NeedsAll Wire.int32 (Bytes.ofInt32 n) n .endOfInput := by
  have h := (needsAll_raw (Bytes.length_ofNat 4 n.toUInt32.toNat)).map Bytes.toInt32
  rwa [show Bytes.toInt32 (Bytes.ofNat 4 n.toUInt32.toNat) = n from toInt32_ofInt32 n] at h

theorem needsAll_optionalBytes {bytes : Bytes} (h : bytes.length ≤ Wire.maxInt32) :
    NeedsAll Wire.optionalBytes (Wire.writeBytes bytes) (some bytes) .endOfInput := by
  rw [Wire.writeBytes, ← ofInt32_ofNat h]
  refine (needsAll_int32 _).bind ?_
  rw [if_neg (not_int32_ofNat_neg h), toInt_int32_ofNat h]
  exact (needsAll_raw rfl).map some

theorem reads_uint16 (n : UInt16) : Reads Wire.uint16 (Bytes.ofUInt16 n) n :=
  (needsAll_uint16 n).reads

theorem reads_uint32 (n : UInt32) : Reads Wire.uint32 (Bytes.ofUInt32 n) n :=
  (needsAll_uint32 n).reads

theorem reads_int16 (n : Int16) : Reads Wire.int16 (Bytes.ofInt16 n) n :=
  (needsAll_int16 n).reads

theorem reads_int32 (n : Int32) : Reads Wire.int32 (Bytes.ofInt32 n) n :=
  (needsAll_int32 n).reads

theorem reads_optionalBytes {bytes : Bytes} (h : bytes.length ≤ Wire.maxInt32) :
    Reads Wire.optionalBytes (Wire.writeBytes bytes) (some bytes) :=
  (needsAll_optionalBytes h).reads

theorem reads_optionalBytes_null : Reads Wire.optionalBytes Wire.null none :=
  (reads_int32 (-1)).bind_nil (reads_pure none)

theorem accepts_uint16 : Accepts Wire.uint16 fun front n => front = Bytes.ofUInt16 n := by
  refine (accepts_raw 2).map ?_
  rintro front bytes ⟨rfl, hlen⟩
  exact (ofUInt16_toUInt16 hlen).symm

theorem ofUInt16_ofNat {n : Nat} (h : n ≤ Wire.maxUInt16) :
    Bytes.ofUInt16 (UInt16.ofNat n) = Bytes.ofNat 2 n := by
  rw [Bytes.ofUInt16, toNat_uint16_ofNat h]

/-- Items behind their count are read back, if each of them is. -/
theorem reads_counted {item : Wire.WireReader α} {write : α → Bytes} {items : List α}
    (hcount : items.length ≤ Wire.maxUInt16) (heach : ∀ a ∈ items, Reads item (write a) a) :
    Reads (Wire.counted item) (Bytes.ofNat 2 items.length ++ items.flatMap write) items := by
  have hitems : Reads (Reader.times items.length item) (items.flatMap write) items := by
    clear hcount
    induction items with
    | nil => exact reads_pure []
    | cons a items ih =>
      rw [List.forall_mem_cons] at heach
      rw [List.length_cons, Reader.times_succ, List.flatMap_cons]
      exact heach.1.bind ((ih heach.2).map _)
  rw [← ofUInt16_ofNat hcount]
  refine (needsAll_uint16 _).reads.bind ?_
  rwa [toNat_uint16_ofNat hcount]

theorem needsAll_shortBytes {bytes : Bytes} (h : bytes.length ≤ Wire.maxUInt16) :
    NeedsAll Wire.shortBytes (Wire.writeShortBytes bytes) bytes .endOfInput := by
  rw [Wire.writeShortBytes, ← ofUInt16_ofNat h]
  exact (needsAll_uint16 _).bind (needsAll_raw (toNat_uint16_ofNat h).symm)

theorem accepts_shortBytes : Accepts Wire.shortBytes fun front bytes =>
    front = Wire.writeShortBytes bytes ∧ bytes.length ≤ Wire.maxUInt16 := by
  refine accepts_uint16.bind ?_
  rintro _ n rfl
  intro bytes body rest hread
  obtain ⟨back, rfl, rfl, hlen⟩ := accepts_raw n.toNat _ _ _ hread
  refine ⟨back, rfl, ?_, ?_⟩
  · rw [Wire.writeShortBytes, hlen]
    rfl
  · have hn := n.toNat_lt
    simp only [Wire.maxUInt16]
    omega

theorem needsAll_string {s : String} (h : (Utf8.encode s).length ≤ Wire.maxUInt16) :
    NeedsAll Wire.string (Wire.writeString s) s .endOfInput := by
  refine (needsAll_shortBytes h).bind_nil ?_
  rw [Utf8.decode_encode]
  exact needsAll_pure s _

theorem accepts_string : Accepts Wire.string fun front s =>
    front = Wire.writeString s ∧ (Utf8.encode s).length ≤ Wire.maxUInt16 := by
  refine accepts_shortBytes.bind ?_
  rintro _ bytes ⟨rfl, hlen⟩
  cases hdecode : Utf8.decode bytes with
  | error fault => exact accepts_throw _
  | ok s =>
    refine accepts_pure ?_
    rw [Wire.writeString, Utf8.encode_of_decode hdecode, List.append_nil]
    exact ⟨rfl, hlen⟩

end CqlClient
