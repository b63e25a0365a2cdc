/-
# Computations that keep what they reached for

A computation on a source takes parts of it by their offsets, and counts in words of a fixed width.
Each of these is right within bounds only: out of them a part is not there, a difference is less
than nothing, a sum wraps around, a number does not fit its word, or one that is held below a bound
is not the one that was meant.

A `Traced` computation keeps all of them.  It has a value whatever they are, so that its value and
its accesses can be spoken of apart: that it computes the right thing, and that it is `Safe`.

* `Access`, `Access.InRange`: what is kept, and when it is right;
* `Traced.Yields`: a computation is safe and has a certain value;
* `Traced.Yields.bind`, `Traced.yields_once`: so it is if its steps are, and a step is if its access
  is in range.
-/

namespace LexicalAnalysis

/-- Something that is right within bounds only. -/
inductive Access where
  /-- The sum of two numbers in a word that has so many values. -/
  | sum (a b size : Nat)
  /-- What is left of the first number without the second. -/
  | difference (a b : Nat)
  /-- A number put into a word that has so many values. -/
  | narrow (n size : Nat)
  /-- A number held below a bound that it should not have passed. -/
  | clamp (n bound : Nat)
  /-- The part of so many elements that starts and stops there. -/
  | part (length start stop : Nat)
  deriving DecidableEq

namespace Access

/-- Whether an access is within its bounds. -/
def InRange : Access → Prop
  | sum a b size => a + b < size
  | difference a b => b ≤ a
  | narrow n size => n < size
  | clamp n bound => n ≤ bound
  | part length start stop => start ≤ stop ∧ stop ≤ length

instance : DecidablePred InRange
  | sum a b size => inferInstanceAs (Decidable (a + b < size))
  | difference a b => inferInstanceAs (Decidable (b ≤ a))
  | narrow n size => inferInstanceAs (Decidable (n < size))
  | clamp n bound => inferInstanceAs (Decidable (n ≤ bound))
  | part length start stop => inferInstanceAs (Decidable (start ≤ stop ∧ stop ≤ length))

end Access

/-- A value, and the accesses that were made for it. -/
structure Traced (α : Type) where
  value : α
  accesses : List Access

namespace Traced

variable {α β : Type}

instance : Monad Traced where
  pure a := ⟨a, []⟩
  bind x f := ⟨(f x.value).value, x.accesses ++ (f x.value).accesses⟩

/-- All accesses are within their bounds. -/
def Safe (x : Traced α) : Prop := ∀ a ∈ x.accesses, a.InRange

instance : DecidablePred (Safe (α := α)) := fun x =>
  inferInstanceAs (Decidable (∀ a ∈ x.accesses, a.InRange))

@[simp] theorem pure_value (a : α) : (pure a : Traced α).value = a := rfl

@[simp] theorem pure_accesses (a : α) : (pure a : Traced α).accesses = [] := rfl

@[simp] theorem bind_value (x : Traced α) (f : α → Traced β) :
    (x >>= f).value = (f x.value).value := rfl

@[simp] theorem bind_accesses (x : Traced α) (f : α → Traced β) :
    (x >>= f).accesses = x.accesses ++ (f x.value).accesses := rfl

/-- A computation that is safe and has the given value. -/
structure Yields (x : Traced α) (a : α) : Prop where
  value_eq : x.value = a
  safe : x.Safe

theorem yields_pure (a : α) : (pure a : Traced α).Yields a where
  value_eq := rfl
  safe := fun _ h => by cases h

/-- **What a computation yields is read off its steps**, one after the other. -/
theorem Yields.bind {x : Traced α} {f : α → Traced β} {a : α} {b : β} (hx : x.Yields a)
    (hf : (f a).Yields b) : (x >>= f).Yields b := by
  obtain ⟨rfl, hx⟩ := hx
  exact ⟨hf.value_eq, List.forall_mem_append.mpr ⟨hx, hf.safe⟩⟩

/-! ## 1. The primitives -/

/-- A computation that makes one access. -/
def once (a : Access) (value : α) : Traced α := ⟨value, [a]⟩

@[simp] theorem once_value (a : Access) (value : α) : (once a value).value = value := rfl

@[simp] theorem once_accesses (a : Access) (value : α) : (once a value).accesses = [a] := rfl

theorem yields_once (a : Access) (h : a.InRange) (value : α) : (once a value).Yields value where
  value_eq := rfl
  safe := List.forall_mem_singleton.mpr h

/-- One offset more than another, in a word of 64 bits. -/
def addOffset (a b : Nat) : Traced Nat := once (.sum a b UInt64.size) (a + b)

/-- The sum of two words. -/
def addWord (a b : UInt32) : Traced UInt32 := once (.sum a.toNat b.toNat UInt32.size) (a + b)

/-- A number as a word. -/
def toWord (n : Nat) : Traced UInt32 := once (.narrow n UInt32.size) (.ofNat n)

/-- How far one offset is behind another. -/
def sub (a b : Nat) : Traced Nat := once (.difference a b) (a - b)

/-- A number that is held below a bound. -/
def least (n bound : Nat) : Traced Nat := once (.clamp n bound) (min n bound)

/-- What a list has from one offset up to another. -/
def part (xs : List α) (start stop : Nat) : Traced (List α) :=
  once (.part xs.length start stop) (xs.extract start stop)

theorem addOffset_yields {a b : Nat} (h : a + b < UInt64.size) : (addOffset a b).Yields (a + b) :=
  yields_once (.sum a b UInt64.size) h _

theorem addWord_yields {a b : UInt32} (h : a.toNat + b.toNat < UInt32.size) :
    (addWord a b).Yields (a + b) :=
  yields_once (.sum a.toNat b.toNat UInt32.size) h _

theorem toWord_yields {n : Nat} (h : n < UInt32.size) : (toWord n).Yields (.ofNat n) :=
  yields_once (.narrow n UInt32.size) h _

/-- The bound does nothing if it is not passed. -/
theorem least_yields {n bound : Nat} (h : n ≤ bound) : (least n bound).Yields n := by
  unfold least
  rw [Nat.min_eq_left h]
  exact yields_once (.clamp n bound) h _

theorem part_yields {xs : List α} {start stop : Nat} (h : start ≤ stop) (hstop : stop ≤ xs.length) :
    (part xs start stop).Yields (xs.extract start stop) :=
  yields_once (.part xs.length start stop) ⟨h, hstop⟩ _

example : (part [5, 6] 1 2).Safe ∧ ¬ (part [5, 6] 1 3).Safe ∧ ¬ (part [5, 6] 2 1).Safe := by decide

end Traced

end LexicalAnalysis
