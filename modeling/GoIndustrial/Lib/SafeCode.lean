import GoIndustrial.Lib.GoSlice
import Mathlib.Data.List.Forall2

/-!
# Code that does not panic

A postcondition for code that may return an error or panic: `Safe m P E` says that `m` does not
panic, that a value it returns satisfies `P` and an error it returns satisfies `E`. The rules below
follow the way such code is written: one bounds-checked access after the other, with returns in
between.

## Main definitions

* `GoSlice.Safe` : no panic, with a postcondition for the value and one for the error.

## Main results

* `GoSlice.Safe.bind` : a computation and what follows it.
* `GoSlice.safe_index`, `GoSlice.safe_uint16At` : accesses inside the slice.
* `GoSlice.safe_readWords`, `GoSlice.safe_readBits` : loops of accesses.
-/

namespace GoSlice

open BitPacking

variable {ε α β : Type}

/-- The computation does not panic; its value satisfies `P`, and its error `E`. -/
def Safe (m : Except (Fault ε) α) (P : α → Prop) (E : ε → Prop) : Prop :=
  match m with
  | .ok a => P a
  | .error .panic => False
  | .error (.error e) => E e

variable {P Q : α → Prop} {E F : ε → Prop} {m : Except (Fault ε) α}

@[simp] theorem safe_ok {a : α} : Safe (.ok a) P E ↔ P a := Iff.rfl

@[simp] theorem safe_pure {a : α} : Safe (pure a) P E ↔ P a := Iff.rfl

@[simp] theorem safe_error {e : ε} : Safe (.error (.error e)) P E ↔ E e := Iff.rfl

theorem Safe.imp (h : Safe m P E) (hP : ∀ a, P a → Q a) (hE : ∀ e, E e → F e) : Safe m Q F := by
  match m, h with
  | .ok a, h => exact hP a h
  | .error (.error e), h => exact hE e h

theorem Safe.bind {f : α → Except (Fault ε) β} {R : β → Prop} (h : Safe m Q E)
    (hf : ∀ a, Q a → Safe (f a) R E) : Safe (m >>= f) R E := by
  match m, h with
  | .ok a, h => exact hf a h
  | .error (.error e), h => exact h

theorem Safe.ite {c : Prop} [Decidable c] {n : Except (Fault ε) α} (hm : c → Safe m P E)
    (hn : ¬ c → Safe n P E) : Safe (if c then m else n) P E := by
  split_ifs with h
  · exact hm h
  · exact hn h

theorem Safe.ne_panic (h : Safe m P E) : m ≠ .error .panic := by
  rintro rfl
  exact h

/-- A computation that has no error to return returns a value. -/
theorem Safe.exists_ok (h : Safe m P fun _ => False) : ∃ a, m = .ok a := by
  match m, h with
  | .ok a, _ => exact ⟨a, rfl⟩

theorem bind_eq_ok {η : Type} {x : Except η α} {f : α → Except η β} {b : β} :
    x >>= f = .ok b ↔ ∃ a, x = .ok a ∧ f a = .ok b := by
  cases x <;> simp [bind, Except.bind]

theorem map_eq_ok {f : α → β} {b : β} : m.map f = .ok b ↔ ∃ a, m = .ok a ∧ f a = b := by
  cases m <;> simp [Except.map]

/-- A loop returns what its rounds return. -/
theorem mapM_eq_ok {η : Type} {f : α → Except η β} {l : List α} {bs : List β} :
    l.mapM f = .ok bs ↔ List.Forall₂ (fun b a => f a = .ok b) bs l := by
  induction l generalizing bs with
  | nil =>
    rw [List.mapM_nil, List.forall₂_nil_right_iff]
    exact ⟨fun h => (Except.ok.inj h).symm, fun h => h ▸ rfl⟩
  | cons a l ih =>
    simp only [List.mapM_cons, bind_eq_ok, ih]
    constructor
    · rintro ⟨b, hb, bs', hbs, h⟩
      cases h
      exact .cons hb hbs
    · rintro (_ | ⟨hb, hbs⟩)
      exact ⟨_, hb, _, hbs, rfl⟩

/-! ### Accesses -/

theorem safe_index {buf : List UInt8} {i : ℕ} (h : i < buf.length) :
    Safe (index buf i) (fun b => b = buf.getD i 0) E := by
  rw [index_of_lt h]
  exact rfl

theorem safe_uint16At {buf : List UInt8} {i : ℕ} (h : i + 2 ≤ buf.length) :
    Safe (uint16At buf i) (fun x => x = uint16 (buf.getD i 0) (buf.getD (i + 1) 0)) E := by
  rw [uint16At_of_le h]
  exact rfl

theorem safe_slice {buf : List UInt8} {lo hi : ℕ} (h : lo ≤ hi) (hhi : hi ≤ buf.length) :
    Safe (slice buf lo hi) (fun out => out = (buf.take hi).drop lo) E := by
  rw [slice, if_pos ⟨h, hhi⟩]
  exact rfl

theorem safe_sliceFrom {buf : List UInt8} {lo : ℕ} (h : lo ≤ buf.length) :
    Safe (sliceFrom buf lo) (fun out => out = buf.drop lo) E := by
  rw [sliceFrom, if_pos h]
  exact rfl

theorem safe_uint16LEAt {buf : List UInt8} {i : ℕ} (h : i + 2 ≤ buf.length) :
    Safe (uint16LEAt buf i) (fun x => x = LittleEndian.uint16 ((buf.drop i).take 2)) E := by
  rw [uint16LEAt, if_pos h]
  exact rfl

theorem safe_uint32LEAt {buf : List UInt8} {i : ℕ} (h : i + 4 ≤ buf.length) :
    Safe (uint32LEAt buf i) (fun x => x = LittleEndian.uint32 ((buf.drop i).take 4)) E := by
  rw [uint32LEAt, if_pos h]
  exact rfl

theorem safe_setAt {buf : List UInt8} {i : ℕ} {b : UInt8} (h : i < buf.length) :
    Safe (setAt buf i b) (fun out => out.length = buf.length) E := by
  rw [setAt, if_pos h]
  exact List.length_set

theorem safe_copyAt {buf src : List UInt8} {lo hi : ℕ} (h : lo ≤ hi) (hhi : hi ≤ buf.length) :
    Safe (copyAt buf lo hi src) (fun out => out.length = buf.length) E := by
  rw [copyAt, if_pos ⟨h, hhi⟩, safe_ok]
  simp only [List.length_append, List.length_take, List.length_drop]
  omega

/-! ### Loops -/

theorem safe_mapM {f : α → Except (Fault ε) β} {l : List α}
    (h : ∀ a ∈ l, Safe (f a) (fun _ => True) E) :
    Safe (l.mapM f) (fun bs => bs.length = l.length) E := by
  induction l with
  | nil => exact rfl
  | cons a l ih =>
    rw [List.mapM_cons]
    refine (h a List.mem_cons_self).bind fun b _ => ?_
    refine (ih fun c hc => h c (List.mem_cons_of_mem _ hc)).bind fun bs hbs => ?_
    simp [hbs]

theorem safe_readWords {buf : List UInt8} {off quantity : ℕ}
    (h : off + quantity * 2 ≤ buf.length) :
    Safe (readWords buf off quantity) (fun ws => ws.length = quantity) E := by
  refine (safe_mapM fun i hi => ?_).imp (fun ws hws => hws.trans List.length_range) fun _ => id
  have hlt := List.mem_range.mp hi
  exact (safe_uint16At (by omega)).imp (fun _ _ => trivial) fun _ => id

theorem safe_readBits {test : UInt8 → ℕ → Bool} {buf : List UInt8} {off quantity : ℕ}
    (h : quantity ≤ 8 * (buf.length - off)) :
    Safe (readBits test buf off quantity) (fun bs => bs.length = quantity) E := by
  refine (safe_mapM fun i hi => ?_).imp (fun ws hws => hws.trans List.length_range) fun _ => id
  have hlt := List.mem_range.mp hi
  exact (safe_index (by omega)).bind fun b _ => trivial

end GoSlice
