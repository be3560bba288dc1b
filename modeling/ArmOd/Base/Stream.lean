import Mathlib

/-!
# Streams of tokens

A writer puts tokens on a stream, and a reader takes them from its front. `Carries write read f`
says that reading back what was written for `a` gives `f a` and leaves the rest of the stream, so
`f` is what the writer and the reader together keep of a value: the identity for a pair of inverse
operators, a projection where a field is not written. The rules follow the shape of a reader.
-/

namespace ArmOd

variable {τ α β γ : Type}

abbrev Reader (τ α : Type) := StateT (List τ) Option α

namespace Reader

/-- `read` as many times as the stream has announced. -/
def many (read : Reader τ β) : Nat → Reader τ (List β)
  | 0 => pure []
  | n + 1 => do
    let b ← read
    let bs ← many read n
    return b :: bs

end Reader

/-- What is written for `a` reads back as `f a`, and nothing more is taken. -/
def Carries (write : α → List τ) (read : Reader τ β) (f : α → β) : Prop :=
  ∀ a rest, read.run (write a ++ rest) = some (f a, rest)

namespace Carries

variable {write : α → List τ} {read : Reader τ β} {f : α → β}

theorem run (h : Carries write read f) (a : α) : read.run (write a) = some (f a, []) := by
  rw [← List.append_nil (write a), h]

theorem bind {write' : α → List τ} {next : β → Reader τ γ} {f' : β → α → γ}
    (h : Carries write read f)
    (hnext : ∀ b, Carries write' (next b) (f' b)) : Carries (fun a => write a ++ write' a)
    (read >>= next) fun a => f' (f a) a := by
  intro a rest
  rw [StateT.run_bind, List.append_assoc, h]
  exact hnext (f a) a rest

theorem pure (b : β) : Carries (fun _ : α => ([] : List τ)) (Pure.pure b) fun _ => b :=
  fun _ _ => rfl

theorem many (h : Carries write read f) (as : List α) (rest : List τ) :
    (read.many as.length).run (as.flatMap write ++ rest) = some (as.map f, rest) := by
  induction as with
  | nil => rfl
  | cons a as ih =>
      rw [List.length_cons, List.flatMap_cons, List.append_assoc, Reader.many, StateT.run_bind, h,
        Option.bind_eq_bind, Option.bind_some,
        StateT.run_bind, ih]
      rfl

theorem container {writeSize : Nat → List τ} {readSize : Reader τ Nat}
    (hsize : Carries writeSize readSize id) (h : Carries write read f) :
    Carries (fun as : List α => writeSize as.length ++ as.flatMap write) (readSize >>= read.many)
      (List.map f) := by
  intro as rest
  rw [StateT.run_bind, List.append_assoc, hsize]
  exact h.many as rest

end Carries

end ArmOd
