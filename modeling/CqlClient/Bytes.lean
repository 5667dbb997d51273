/-!
Byte strings in network order, and readers that consume them from the front.
A reader reports what is left of its input on failure too.
-/

namespace CqlClient

-- Powers are the built-in ones, also in a module that imports another instance of them.
attribute [instance (high), default_instance 20000] instPowNat

abbrev Bytes := List UInt8

namespace Bytes

/-- The `width` low bytes of a number, most significant first. -/
def ofNat : Nat → Nat → Bytes
  | 0, _ => []
  | width + 1, n => ofNat width (n / 256) ++ [UInt8.ofNat n]

/-- The number written by bytes, most significant first. -/
def toNat (bytes : Bytes) : Nat := bytes.foldl (fun n b => n * 256 + b.toNat) 0

/-- Whether the sign bit of the first byte is set. -/
def isNegative : Bytes → Bool
  | [] => false
  | b :: _ => 128 ≤ b

/-- The two's complement number written by bytes; no byte at all writes zero. -/
def toInt (bytes : Bytes) : Int :=
  if bytes.isNegative then (bytes.toNat : Int) - 256 ^ bytes.length else bytes.toNat

/-- The first `n` bytes and the rest, if there are that many. The cost depends on `n` alone. -/
def split? (n : Nat) (bytes : Bytes) : Option (Bytes × Bytes) :=
  let front := bytes.take n
  if front.length = n then some (front, bytes.drop n) else none

def ofUInt16 (n : UInt16) : Bytes := ofNat 2 n.toNat
def ofUInt32 (n : UInt32) : Bytes := ofNat 4 n.toNat
def ofUInt64 (n : UInt64) : Bytes := ofNat 8 n.toNat
def ofInt8 (n : Int8) : Bytes := ofNat 1 n.toUInt8.toNat
def ofInt16 (n : Int16) : Bytes := ofNat 2 n.toUInt16.toNat
def ofInt32 (n : Int32) : Bytes := ofNat 4 n.toUInt32.toNat
def ofInt64 (n : Int64) : Bytes := ofNat 8 n.toUInt64.toNat

def toUInt16 (bytes : Bytes) : UInt16 := UInt16.ofNat bytes.toNat
def toUInt32 (bytes : Bytes) : UInt32 := UInt32.ofNat bytes.toNat
def toUInt64 (bytes : Bytes) : UInt64 := UInt64.ofNat bytes.toNat
def toInt8 (bytes : Bytes) : Int8 := (UInt8.ofNat bytes.toNat).toInt8
def toInt16 (bytes : Bytes) : Int16 := bytes.toUInt16.toInt16
def toInt32 (bytes : Bytes) : Int32 := bytes.toUInt32.toInt32
def toInt64 (bytes : Bytes) : Int64 := bytes.toUInt64.toInt64

theorem length_ofNat (width n : Nat) : (ofNat width n).length = width := by
  induction width generalizing n with
  | zero => rfl
  | succ width ih => simp [ofNat, ih]

theorem toNat_append_singleton (bytes : Bytes) (b : UInt8) :
    toNat (bytes ++ [b]) = toNat bytes * 256 + b.toNat := by
  simp [toNat]

/-- Writing keeps the number modulo what the width can hold. -/
theorem toNat_ofNat (width n : Nat) : toNat (ofNat width n) = n % 256 ^ width := by
  induction width generalizing n with
  | zero => simp [ofNat, toNat, Nat.mod_one]
  | succ width ih =>
    rw [ofNat, toNat_append_singleton, ih]
    simp only [UInt8.toNat_ofNat', Nat.reducePow]
    rw [Nat.pow_succ', Nat.mod_mul, Nat.mul_comm, Nat.add_comm]

theorem split?_append (front rest : Bytes) :
    split? front.length (front ++ rest) = some (front, rest) := by
  simp [split?]

end Bytes

/-- A reader consumes a front part of the bytes, whether it succeeds or not. -/
abbrev Reader (ε : Type) := EStateM ε Bytes

namespace Reader

variable {ε δ α : Type}

/-- What is left to read. -/
def rest : Reader ε Bytes := get

/-- Consumes `n` bytes, or fails with `e` and consumes nothing. -/
def exactly (e : ε) (n : Nat) : Reader ε Bytes := fun bytes =>
  match bytes.split? n with
  | some (front, rest) => .ok front rest
  | none => .error e bytes

def fail (e : ε) : Reader ε α := throw e

def ofExcept : Except ε α → Reader ε α
  | .ok a => pure a
  | .error e => throw e

def mapError (f : ε → δ) (r : Reader ε α) : Reader δ α := r.adaptExcept f

private def collect (r : Reader ε α) : Nat → List α → Reader ε (List α)
  | 0, done => pure done.reverse
  | n + 1, done => do
    let a ← r
    collect r n (a :: done)

/-- Reads `n` items in a row. -/
def times (n : Nat) (r : Reader ε α) : Reader ε (List α) := collect r n []

/-- The outcome on given bytes, what is left of them being dropped. -/
def outcome (r : Reader ε α) (bytes : Bytes) : Except ε α :=
  match r bytes with
  | .ok a _ => .ok a
  | .error e _ => .error e

/-- The outcome on given bytes and what is left of them. -/
def outcomeWithRest (r : Reader ε α) (bytes : Bytes) : Except ε α × Bytes :=
  match r bytes with
  | .ok a rest => (.ok a, rest)
  | .error e rest => (.error e, rest)

private theorem collect_eq (r : Reader ε α) (n : Nat) (done : List α) :
    collect r n done = do return done.reverse ++ (← collect r n []) := by
  induction n generalizing done with
  | zero => simp [collect]
  | succ n ih =>
    simp only [collect, bind_assoc]
    congr 1
    funext a
    rw [ih (a :: done), ih [a]]
    simp

theorem times_succ (n : Nat) (r : Reader ε α) :
    times (n + 1) r = do
      let a ← r
      let rest ← times n r
      return a :: rest := by
  unfold times
  rw [collect]
  congr 1
  funext a
  rw [collect_eq]
  simp

/-- Whenever the reader succeeds, it has consumed `n` bytes or more. -/
def Consumes (n : Nat) (r : Reader ε α) : Prop :=
  ∀ (bytes rest : Bytes) (a : α), r bytes = .ok a rest → rest.length + n ≤ bytes.length

theorem consumes_pure (a : α) : Consumes 0 (pure a : Reader ε α) := by
  intro bytes rest b h
  cases h
  exact Nat.le_refl _

theorem consumes_exactly (e : ε) (n : Nat) : Consumes n (exactly e n) := by
  intro bytes rest front h
  simp only [exactly, Bytes.split?] at h
  split at h
  · rename_i front' rest' hsplit
    cases h
    split at hsplit
    · rename_i hlength
      cases hsplit
      rw [List.length_take] at hlength
      rw [List.length_drop]
      omega
    · cases hsplit
  · cases h

theorem Consumes.bind {β : Type} {m n : Nat} {r : Reader ε α} {f : α → Reader ε β}
    (hr : Consumes m r) (hf : ∀ a, Consumes n (f a)) : Consumes (m + n) (r >>= f) := by
  intro bytes rest b h
  change EStateM.bind r f bytes = .ok b rest at h
  rw [EStateM.bind] at h
  split at h
  · rename_i a middle hmiddle
    have hfirst := hr _ _ _ hmiddle
    have hsecond := hf a _ _ _ h
    omega
  · cases h

theorem Consumes.mapError {n : Nat} {r : Reader ε α} (f : ε → δ) (hr : Consumes n r) :
    Consumes n (r.mapError f) := by
  intro bytes rest a h
  change EStateM.adaptExcept f r bytes = .ok a rest at h
  rw [EStateM.adaptExcept] at h
  split at h
  · cases h
  · rename_i hread
    cases h
    exact hr _ _ _ hread

theorem consumes_ofExcept (result : Except ε α) : Consumes 0 (ofExcept result) := by
  cases result with
  | error e =>
    intro bytes rest a h
    cases h
  | ok a => exact consumes_pure a

theorem Consumes.mono {m n : Nat} {r : Reader ε α} (hr : Consumes n r) (h : m ≤ n) :
    Consumes m r := by
  intro bytes rest a hread
  have hlength := hr _ _ _ hread
  omega

end Reader

end CqlClient
