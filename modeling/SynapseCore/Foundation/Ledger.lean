import Mathlib.Logic.Function.Basic
import Mathlib.Tactic.Simps.Basic

/-! Typed key-value storage in three tiers, with a log of published events.
A key fixes the type of its value, so an entry of the wrong type cannot be stored. -/

universe u v w

/-- One storage tier: the value under each key, if there is one. -/
def Tier (K : Type u) (V : K → Type v) : Type (max u v) := ∀ k, Option (V k)

namespace Tier
variable {K : Type u} {V : K → Type v}

def get (t : Tier K V) (k : K) : Option (V k) := t k

def has (t : Tier K V) (k : K) : Bool := (t.get k).isSome

def empty : Tier K V := fun _ => none

@[simp] theorem get_empty (k : K) : (empty : Tier K V).get k = none := rfl

variable [DecidableEq K]

def set (t : Tier K V) (k : K) (v : V k) : Tier K V := Function.update t k (some v)

def remove (t : Tier K V) (k : K) : Tier K V := Function.update t k none

@[simp] theorem get_set_self (t : Tier K V) (k : K) (v : V k) : (t.set k v).get k = some v :=
  Function.update_self ..

@[simp] theorem get_set_of_ne (t : Tier K V) {k k' : K} (h : k' ≠ k) (v : V k) :
    (t.set k v).get k' = t.get k' := Function.update_of_ne h ..

@[simp] theorem get_remove_self (t : Tier K V) (k : K) : (t.remove k).get k = none :=
  Function.update_self ..

@[simp] theorem get_remove_of_ne (t : Tier K V) {k k' : K} (h : k' ≠ k) :
    (t.remove k).get k' = t.get k' := Function.update_of_ne h ..

theorem get_set_isSome (t : Tier K V) (k k' : K) (v : V k) :
    ((t.set k v).get k').isSome = (decide (k' = k) || (t.get k').isSome) := by
  by_cases h : k' = k
  · subst h
    simp
  · simp [h]

end Tier

/-- Contract storage: instance, persistent and temporary entries, and the events published. -/
@[ext] structure Ledger (K : Type u) (V : K → Type v) (E : Type w) where
  inst : Tier K V
  persistent : Tier K V
  temporary : Tier K V
  events : List E

namespace Ledger
variable {K : Type u} {V : K → Type v} {E : Type w}

@[simps] def empty : Ledger K V E where
  inst := Tier.empty
  persistent := Tier.empty
  temporary := Tier.empty
  events := []

@[simps] def publish (l : Ledger K V E) (e : E) : Ledger K V E :=
  { l with events := l.events ++ [e] }

variable [DecidableEq K]

@[simps] def setInst (l : Ledger K V E) (k : K) (v : V k) : Ledger K V E :=
  { l with inst := l.inst.set k v }

@[simps] def setPersistent (l : Ledger K V E) (k : K) (v : V k) : Ledger K V E :=
  { l with persistent := l.persistent.set k v }

@[simps] def removePersistent (l : Ledger K V E) (k : K) : Ledger K V E :=
  { l with persistent := l.persistent.remove k }

@[simps] def setTemporary (l : Ledger K V E) (k : K) (v : V k) : Ledger K V E :=
  { l with temporary := l.temporary.set k v }

@[simps] def removeTemporary (l : Ledger K V E) (k : K) : Ledger K V E :=
  { l with temporary := l.temporary.remove k }

end Ledger
