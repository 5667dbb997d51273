import CqlClient.Fault

/-!
# Outcomes of steps in a row

When steps that may fail succeed one after the other, each of them has succeeded; and when they
fail, one of them has. `FaultsIn` says by what a step can fail at all.
-/

namespace CqlClient

variable {ε δ α β : Type}

theorem bind_eq_ok {x : Except ε α} {f : α → Except ε β} {b : β} :
    x >>= f = .ok b ↔ ∃ a, x = .ok a ∧ f a = .ok b := by
  cases x <;> simp [bind, Except.bind]

theorem map_eq_ok {x : Except ε α} {g : α → β} {b : β} :
    g <$> x = .ok b ↔ ∃ a, x = .ok a ∧ g a = b := by
  cases x <;> simp [Functor.map, Except.map]

theorem mapError_eq_ok {x : Except ε α} {g : ε → δ} {a : α} :
    x.mapError g = .ok a ↔ x = .ok a := by
  cases x with
  | error fault => exact iff_of_false nofun nofun
  | ok b =>
    show Except.ok b = Except.ok a ↔ _
    rw [Except.ok.injEq, Except.ok.injEq]

theorem mapM_nil_eq_ok {f : α → Except ε β} {bs : List β} :
    [].mapM f = .ok bs ↔ bs = [] := by
  simp [pure, Except.pure, eq_comm]

theorem mapM_cons_eq_ok {f : α → Except ε β} {a : α} {as : List α} {bs : List β} :
    (a :: as).mapM f = .ok bs ↔ ∃ b tail, f a = .ok b ∧ as.mapM f = .ok tail ∧ bs = b :: tail := by
  rw [List.mapM_cons]
  constructor
  · intro h
    obtain ⟨b, hb, h⟩ := bind_eq_ok.mp h
    obtain ⟨tail, ht, h⟩ := bind_eq_ok.mp h
    exact ⟨b, tail, hb, ht, (Except.ok.inj h).symm⟩
  · rintro ⟨b, tail, hb, ht, rfl⟩
    rw [hb, ht]
    rfl

theorem mapM_congr {m : Type → Type} [Monad m] [LawfulMonad m] {f g : α → m β} {as : List α}
    (h : ∀ a ∈ as, f a = g a) : as.mapM f = as.mapM g := by
  induction as with
  | nil => rfl
  | cons a as ih =>
    have hrest := ih fun b hb => h b (List.mem_cons_of_mem a hb)
    rw [List.mapM_cons, List.mapM_cons, h a (List.mem_cons_self ..), hrest]

theorem mapM_eq_ok_of_zip {f : α → Except ε β} {as : List α} {bs : List β}
    (hlen : as.length = bs.length) (h : ∀ pair ∈ as.zip bs, f pair.1 = .ok pair.2) :
    as.mapM f = .ok bs := by
  induction as generalizing bs with
  | nil =>
    obtain rfl : bs = [] := by simpa using hlen.symm
    rfl
  | cons a as ih =>
    cases bs with
    | nil => cases hlen
    | cons b bs =>
      rw [List.zip_cons_cons, List.forall_mem_cons] at h
      exact mapM_cons_eq_ok.mpr ⟨b, bs, h.1, ih (Nat.succ.inj hlen) h.2, rfl⟩

/-! ## Faults -/

/-- Whatever a step fails by is of the kind. -/
def FaultsIn (kind : ε → Prop) (x : Except ε α) : Prop := ∀ fault, x = .error fault → kind fault

section Faults

variable {kind : ε → Prop} {x : Except ε α}

theorem faultsIn_ok (a : α) : FaultsIn kind (.ok a) := nofun

theorem faultsIn_error {fault : ε} (h : kind fault) :
    FaultsIn kind (.error fault : Except ε α) := by
  rintro _ ⟨⟩
  exact h

theorem FaultsIn.mono {other : ε → Prop} (h : FaultsIn kind x)
    (hwithin : ∀ fault, kind fault → other fault) : FaultsIn other x :=
  fun fault hfailed => hwithin fault (h fault hfailed)

theorem FaultsIn.bind {f : α → Except ε β} (hx : FaultsIn kind x)
    (hf : ∀ a, x = .ok a → FaultsIn kind (f a)) : FaultsIn kind (x >>= f) := by
  cases x with
  | error fault =>
    intro fault' h
    cases h
    exact hx fault rfl
  | ok a => exact hf a rfl

theorem FaultsIn.map (g : α → β) (hx : FaultsIn kind x) : FaultsIn kind (g <$> x) := by
  rw [← bind_pure_comp]
  exact hx.bind fun a _ => faultsIn_ok (g a)

theorem FaultsIn.mapM {f : α → Except ε β} {as : List α} (h : ∀ a ∈ as, FaultsIn kind (f a)) :
    FaultsIn kind (as.mapM f) := by
  induction as with
  | nil => exact faultsIn_ok []
  | cons a as ih =>
    obtain ⟨hfirst, hrest⟩ := List.forall_mem_cons.mp h
    rw [List.mapM_cons]
    exact hfirst.bind fun b _ => (ih hrest).bind fun bs _ => faultsIn_ok (b :: bs)

end Faults

end CqlClient
