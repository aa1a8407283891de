import Mathlib.Algebra.Order.Ring.Int
import Mathlib.Data.List.Induction
import Mathlib.Logic.Function.Basic

/-!
# Programs on a memory

A program reads and writes cells of a memory and returns a value. `run` executes it and lists the
addresses that it read. What a program does depends on nothing but the cells that it reads.
-/

set_option autoImplicit false

namespace MemoryProgram

variable {A B α β : Type}

/-- A program over addresses `A` and cells `B`. -/
inductive Prog (A B α : Type)
  | ret (x : α)
  | read (a : A) (next : B → Prog A B α)
  | write (a : A) (b : B) (next : Prog A B α)

namespace Prog

/-- One program, then another. -/
def bind : Prog A B α → (α → Prog A B β) → Prog A B β
  | ret x, f => f x
  | read a next, f => read a fun b => (next b).bind f
  | write a b next, f => write a b (next.bind f)

instance : Monad (Prog A B) where
  pure := ret
  bind := bind

end Prog

/-- Read a cell. -/
def load (a : A) : Prog A B B := .read a .ret

/-- Write a cell. -/
def store (a : A) (b : B) : Prog A B Unit := .write a b (.ret ())

/-- What an execution leaves: the value, the memory and the addresses read. -/
structure Run (A B α : Type) where
  value : α
  mem : A → B
  reads : List A

variable [DecidableEq A]

/-- Execute a program. -/
def run : Prog A B α → (A → B) → Run A B α
  | .ret x, m => ⟨x, m, []⟩
  | .read a next, m =>
    let r := run (next (m a)) m
    { r with reads := a :: r.reads }
  | .write a b next, m => run next (Function.update m a b)

@[simp] theorem run_pure (x : α) (m : A → B) : run (pure x) m = ⟨x, m, []⟩ := rfl

@[simp] theorem run_load (a : A) (m : A → B) : run (load a) m = ⟨m a, m, [a]⟩ := rfl

@[simp] theorem run_store (a : A) (b : B) (m : A → B) :
    run (store a b) m = ⟨(), Function.update m a b, []⟩ := rfl

/-- A cell that is read goes to the rest of the program. -/
theorem run_load_bind (a : A) (f : B → Prog A B β) (m : A → B) :
    run (load a >>= f) m =
      ⟨(run (f (m a)) m).value, (run (f (m a)) m).mem, a :: (run (f (m a)) m).reads⟩ := rfl

/-- A cell that is written is in the memory of the rest. -/
theorem run_store_bind (a : A) (b : B) (f : Unit → Prog A B β) (m : A → B) :
    run (store a b >>= f) m = run (f ()) (Function.update m a b) := rfl

/-- The second program runs on what the first one leaves. -/
theorem run_bind (p : Prog A B α) (f : α → Prog A B β) (m : A → B) :
    run (p >>= f) m =
      let r := run p m
      let r' := run (f r.value) r.mem
      { r' with reads := r.reads ++ r'.reads } := by
  induction p generalizing m with
  | ret x => rfl
  | read a next ih =>
    have hread : run (Prog.read a next >>= f) m =
        let r := run (next (m a) >>= f) m
        { r with reads := a :: r.reads } := rfl
    rw [hread, ih]
    rfl
  | write a b next ih => exact ih (Function.update m a b)

@[simp] theorem value_bind (p : Prog A B α) (f : α → Prog A B β) (m : A → B) :
    (run (p >>= f) m).value = (run (f (run p m).value) (run p m).mem).value := by
  rw [run_bind]

@[simp] theorem mem_bind (p : Prog A B α) (f : α → Prog A B β) (m : A → B) :
    (run (p >>= f) m).mem = (run (f (run p m).value) (run p m).mem).mem := by
  rw [run_bind]

@[simp] theorem reads_bind (p : Prog A B α) (f : α → Prog A B β) (m : A → B) :
    (run (p >>= f) m).reads =
      (run p m).reads ++ (run (f (run p m).value) (run p m).mem).reads := by
  rw [run_bind]

/-- The addresses that an execution writes. -/
def writes : Prog A B α → (A → B) → List A
  | .ret _, _ => []
  | .read a next, m => writes (next (m a)) m
  | .write a b next, m => a :: writes next (Function.update m a b)

@[simp] theorem writes_pure (x : α) (m : A → B) :
    writes (pure x : Prog A B α) m = [] := rfl

@[simp] theorem writes_load (a : A) (m : A → B) : writes (load a) m = [] := rfl

@[simp] theorem writes_load_bind (a : A) (f : B → Prog A B β) (m : A → B) :
    writes (load a >>= f) m = writes (f (m a)) m := rfl

@[simp] theorem writes_store_bind (a : A) (b : B) (f : Unit → Prog A B β) (m : A → B) :
    writes (store a b >>= f) m = a :: writes (f ()) (Function.update m a b) := rfl

/-- The second program writes in what the first one leaves. -/
theorem writes_bind (p : Prog A B α) (f : α → Prog A B β) (m : A → B) :
    writes (p >>= f) m = writes p m ++ writes (f (run p m).value) (run p m).mem := by
  induction p generalizing m with
  | ret x => rfl
  | read a next ih => exact ih (m a) m
  | write a b next ih =>
    have hrest := ih (Function.update m a b)
    exact congrArg (a :: ·) hrest

/-- What a program does not write stays. -/
theorem mem_of_not_mem_writes (p : Prog A B α) {m : A → B} {a : A} (h : a ∉ writes p m) :
    (run p m).mem a = m a := by
  induction p generalizing m with
  | ret x => rfl
  | read c next ih => exact ih (m c) h
  | write c b next ih =>
    simp only [writes, List.mem_cons, not_or] at h
    exact (ih h.2).trans (Function.update_of_ne h.1 b m)

/-- Two memories that agree where a program reads are the same to it. -/
theorem run_congr {S : A → Prop} (p : Prog A B α) {m m' : A → B} (hagree : ∀ a, S a → m' a = m a)
    (hreads : ∀ a ∈ (run p m).reads, S a) :
    (run p m').value = (run p m).value ∧ (run p m').reads = (run p m).reads ∧
      ∀ a, S a → (run p m').mem a = (run p m).mem a := by
  induction p generalizing m m' with
  | ret x => exact ⟨rfl, rfl, hagree⟩
  | read a next ih =>
    have hcell : m' a = m a := hagree a (hreads a List.mem_cons_self)
    obtain ⟨hvalue, hlist, hmem⟩ := ih (m a) hagree fun c hc => hreads c (List.mem_cons_of_mem a hc)
    simp only [run, hcell]
    exact ⟨hvalue, congrArg (a :: ·) hlist, hmem⟩
  | write a b next ih =>
    refine ih ?_ hreads
    intro c hc
    by_cases hca : c = a
    · subst hca
      rw [Function.update_self, Function.update_self]
    · rw [Function.update_of_ne hca, Function.update_of_ne hca]
      exact hagree c hc

/-! ## Programs that only read -/

/-- The program reads only cells of `S`, leaves the memory as it is and returns a value with `Q`. -/
structure Reads (S : A → Prop) (m : A → B) (p : Prog A B α) (Q : α → Prop) : Prop where
  mem : (run p m).mem = m
  within : ∀ a ∈ (run p m).reads, S a
  post : Q (run p m).value

section Reads

variable {S S' : A → Prop} {m : A → B} {Q Q' : α → Prop} {R : β → Prop}

theorem Reads.pure {x : α} (h : Q x) : Reads S m (pure x) Q :=
  ⟨rfl, by simp, h⟩

theorem Reads.load {a : A} {Q : B → Prop} (ha : S a) (h : Q (m a)) : Reads S m (load a) Q :=
  ⟨rfl, by simpa using ha, h⟩

theorem Reads.bind {p : Prog A B α} {f : α → Prog A B β} (hp : Reads S m p Q)
    (hf : ∀ x, Q x → Reads S m (f x) R) : Reads S m (p >>= f) R := by
  have hrest := hf _ hp.post
  constructor
  · rw [mem_bind, hp.mem, hrest.mem]
  · rw [reads_bind, hp.mem]
    intro a ha
    rcases List.mem_append.mp ha with ha | ha
    · exact hp.within a ha
    · exact hrest.within a ha
  · rw [value_bind, hp.mem]
    exact hrest.post

/-- The value of the first program is known. -/
theorem Reads.bind_eq {p : Prog A B α} {f : α → Prog A B β} {x : α} (hp : Reads S m p (· = x))
    (hf : Reads S m (f x) R) : Reads S m (p >>= f) R := by
  refine hp.bind ?_
  rintro y rfl
  exact hf

theorem Reads.mono {p : Prog A B α} (hp : Reads S m p Q) (hS : ∀ a, S a → S' a)
    (hQ : ∀ x, Q x → Q' x) : Reads S' m p Q' :=
  ⟨hp.mem, fun a ha => hS a (hp.within a ha), hQ _ hp.post⟩

theorem Reads.ite {c : Prop} [Decidable c] {p q : Prog A B α} (hp : c → Reads S m p Q)
    (hq : ¬c → Reads S m q Q) : Reads S m (if c then p else q) Q := by
  split
  · rename_i h
    exact hp h
  · rename_i h
    exact hq h

end Reads

end MemoryProgram
