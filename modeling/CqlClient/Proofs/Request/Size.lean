import CqlClient.Proofs.Outcome
import CqlClient.Request

/-!
# The size of a request, found before it is written

A size is found field by field, and the fields are written elsewhere. `Sizes` ties the two together:

* `Sizes.append`: what is written one after the other has the sum of the sizes;
* `Sizes.failed_iff`: no size is found exactly when a length does not fit its prefix;
* `Request.sizes`: so for whole bodies.
-/

namespace CqlClient

/-- A size is found exactly when all lengths fit their prefixes, and it is that of the bytes. -/
def Sizes (size : Except ValueTooLarge Nat) (fits : Prop) (bytes : Bytes) : Prop :=
  ∀ n, size = .ok n ↔ fits ∧ bytes.length = n

section Sizes

variable {size size' : Except ValueTooLarge Nat} {fits fits' : Prop} {bytes front back : Bytes}

theorem Sizes.append (h : Sizes size fits front) (h' : Sizes size' fits' back) :
    Sizes (do return (← size) + (← size')) (fits ∧ fits') (front ++ back) := by
  intro n
  rw [bind_eq_ok, List.length_append]
  constructor
  · rintro ⟨a, ha, hrest⟩
    obtain ⟨b, hb, hsum⟩ := bind_eq_ok.mp hrest
    obtain ⟨hfits, rfl⟩ := (h a).mp ha
    obtain ⟨hfits', rfl⟩ := (h' b).mp hb
    exact ⟨⟨hfits, hfits'⟩, Except.ok.inj hsum⟩
  · rintro ⟨⟨hfits, hfits'⟩, rfl⟩
    have ha := (h front.length).mpr ⟨hfits, rfl⟩
    have hb := (h' back.length).mpr ⟨hfits', rfl⟩
    exact ⟨_, ha, bind_eq_ok.mpr ⟨_, hb, rfl⟩⟩

theorem Sizes.failed_iff (h : Sizes size fits bytes) : (∃ fault, size = .error fault) ↔ ¬ fits := by
  cases hsize : size with
  | ok n =>
    have hfits := ((h n).mp hsize).1
    simp [hfits]
  | error fault =>
    have hnot : ¬ fits := by
      intro hfits
      have hok := (h bytes.length).mpr ⟨hfits, rfl⟩
      rw [hsize] at hok
      cases hok
    simp [hnot]

theorem sizes_bytes (bytes : Bytes) :
    Sizes (Wire.sizeOfBytes bytes) (bytes.length ≤ Wire.maxInt32) (Wire.writeBytes bytes) := by
  intro n
  simp only [Wire.sizeOfBytes, Wire.writeBytes, List.length_append, Bytes.length_ofNat]
  split
  · simp [*]
  · simp [*]

theorem sizes_shortBytes (bytes : Bytes) :
    Sizes (Wire.sizeOfShortBytes bytes) (bytes.length ≤ Wire.maxUInt16)
      (Wire.writeShortBytes bytes) := by
  intro n
  simp only [Wire.sizeOfShortBytes, Wire.writeShortBytes, List.length_append, Bytes.length_ofNat]
  split
  · simp [*]
  · simp [*]

end Sizes

namespace Request

/-- A key and its value have lengths that their prefixes can announce. -/
def EntryFits (entry : String × String) : Prop :=
  (Utf8.encode entry.1).length ≤ Wire.maxUInt16 ∧ (Utf8.encode entry.2).length ≤ Wire.maxUInt16

theorem sizes_entry (entry : String × String) :
    Sizes (entrySize entry) (EntryFits entry) (entryBytes entry) :=
  (sizes_shortBytes _).append (sizes_shortBytes _)

/-- The sizes of the entries are added up, from `start` on. -/
theorem foldlM_entrySize (entries : List (String × String)) (start n : Nat) :
    entries.foldlM (fun size entry => return size + (← entrySize entry)) start = .ok n ↔
      (∀ entry ∈ entries, EntryFits entry) ∧ start + (entries.flatMap entryBytes).length = n := by
  induction entries generalizing start with
  | nil => simp [pure, Except.pure]
  | cons entry entries ih =>
    rw [List.foldlM_cons, bind_eq_ok, List.forall_mem_cons, List.flatMap_cons, List.length_append]
    constructor
    · rintro ⟨next, hnext, hrest⟩
      obtain ⟨size, hsize, hsum⟩ := bind_eq_ok.mp hnext
      obtain ⟨hfits, rfl⟩ := (sizes_entry entry size).mp hsize
      obtain rfl := Except.ok.inj hsum
      obtain ⟨hlater, htotal⟩ := (ih _).mp hrest
      exact ⟨⟨hfits, hlater⟩, by omega⟩
    · rintro ⟨⟨hfits, hlater⟩, htotal⟩
      have hsize := (sizes_entry entry _).mpr ⟨hfits, rfl⟩
      have hrest := (ih (start + (entryBytes entry).length)).mpr ⟨hlater, by omega⟩
      exact ⟨_, bind_eq_ok.mpr ⟨_, hsize, rfl⟩, hrest⟩

theorem sizes_map (entries : List (String × String)) :
    Sizes (mapSize entries)
      (entries.length ≤ Wire.maxUInt16 ∧ ∀ entry ∈ entries, EntryFits entry)
      (mapBytes entries) := by
  intro n
  have hlength : (mapBytes entries).length = 2 + (entries.flatMap entryBytes).length := by
    rw [mapBytes, List.length_append, Bytes.length_ofNat]
  rw [hlength, and_assoc, ← foldlM_entrySize entries 2 n]
  by_cases hcount : entries.length ≤ Wire.maxUInt16
  · have hfew : ¬ entries.length > Wire.maxUInt16 := by omega
    simp [mapSize, hcount, hfew, bind, Except.bind, pure, Except.pure]
  · have hmany : entries.length > Wire.maxUInt16 := by omega
    simp [mapSize, hcount, hmany, bind, Except.bind, throw, throwThe, MonadExceptOf.throw]

end Request

/-- The one length among the parameters that has a prefix. -/
def QueryParameters.Fits (p : QueryParameters) : Prop :=
  ∀ state, p.pagingState = some state → state.length ≤ Wire.maxInt32

namespace QueryParameters

theorem length_elim {α : Type} (o : Option α) (write : α → Bytes) :
    (o.elim [] write).length = o.elim 0 fun a => (write a).length := by
  cases o with
  | none => rfl
  | some a => rfl

theorem sizes_pagingState (p : QueryParameters) :
    Sizes (optionalSize Wire.sizeOfBytes p.pagingState) p.Fits
      (p.pagingState.elim [] Wire.writeBytes) := by
  intro n
  cases hstate : p.pagingState with
  | none => simp [optionalSize, Fits, hstate]
  | some state =>
    have hsize := sizes_bytes state n
    simpa [optionalSize, Fits, hstate] using hsize

theorem sizes (p : QueryParameters) : Sizes p.size p.Fits p.bytes := by
  intro n
  have hlength : p.bytes.length = 3 + (p.values?.elim 0 (·.bytes.length)) +
      (p.pageSize.elim 0 fun _ => 4) + (p.pagingState.elim [] Wire.writeBytes).length +
      (p.serialConsistency.elim 0 fun _ => 2) + (p.timestamp.elim 0 fun _ => 8) := by
    simp [bytes, length_elim, Bytes.ofUInt16, Bytes.ofInt32, Bytes.ofInt64, Bytes.length_ofNat]
    omega
  rw [hlength, size, bind_eq_ok]
  constructor
  · rintro ⟨state, hstate, htotal⟩
    obtain ⟨hfits, rfl⟩ := (p.sizes_pagingState state).mp hstate
    exact ⟨hfits, Except.ok.inj htotal⟩
  · rintro ⟨hfits, rfl⟩
    exact ⟨_, (p.sizes_pagingState _).mpr ⟨hfits, rfl⟩, rfl⟩

end QueryParameters

/-- Every length of the request, and the count of a map, fits the prefix that announces it. -/
def Request.Fits : Request → Prop
  | .options => True
  | .startup entries =>
    entries.length ≤ Wire.maxUInt16 ∧ ∀ entry ∈ entries, EntryFits entry
  | .prepare statement => (Utf8.encode statement).length ≤ Wire.maxInt32
  | .query statement parameters =>
    (Utf8.encode statement).length ≤ Wire.maxInt32 ∧ parameters.Fits
  | .execute id parameters => id.length ≤ Wire.maxUInt16 ∧ parameters.Fits

/-- The size of a request is that of its body, and is found unless a length does not fit. -/
theorem Request.sizes (request : Request) : Sizes request.size request.Fits request.body := by
  cases request with
  | options => simp [Sizes, Request.size, Request.Fits, Request.body]
  | startup entries => exact sizes_map entries
  | prepare statement => exact sizes_bytes _
  | query statement parameters => exact (sizes_bytes _).append parameters.sizes
  | execute id parameters => exact (sizes_shortBytes _).append parameters.sizes

end CqlClient
