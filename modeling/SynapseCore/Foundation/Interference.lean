import SynapseCore.Foundation.KeyedRuns
import SynapseCore.Foundation.Ledger

/-! Calls of several parties on one state, where each party sees a part of it. If no party
writes what another sees, each is answered as if it were alone. -/

universe u v w

namespace Machine
variable {S I O D : Type*} [DecidableEq D]

/-- A call is answered by what its party sees, and writes nothing the others see. -/
structure Separated (step : S → I → S × O) (party : I → D) (same : D → S → S → Prop) : Prop where
  answer : ∀ s t i, same (party i) s t → (step s i).2 = (step t i).2
  own : ∀ s t i, same (party i) s t → same (party i) (step s i).1 (step t i).1
  other : ∀ d s t i, party i ≠ d → same d s t → same d (step s i).1 t

namespace Separated
variable {step : S → I → S × O} {party : I → D} {same : D → S → S → Prop}
  (h : Separated step party same) {d : D}
include h

/-- What a party sees at the end of a run is what its own calls leave there. -/
theorem same_after {s t : S} (hst : same d s t) (is : List I) :
    same d (after step s is) (after step t (addressed party d is)) := by
  induction is generalizing s t with
  | nil => exact hst
  | cons i is ih =>
    by_cases hd : party i = d
    · subst hd
      rw [addressed_cons_self]
      exact ih (h.own s t i hst)
    · rw [addressed_cons_of_ne party hd]
      exact ih (h.other d s t i hd hst)

theorem transcript_filter {s t : S} (hst : same d s t) (is : List I) :
    (transcript step s is).filter (fun entry => party entry.1 = d) =
      transcript step t (addressed party d is) := by
  induction is generalizing s t with
  | nil => rfl
  | cons i is ih =>
    by_cases hd : party i = d
    · subst hd
      rw [addressed_cons_self, transcript_cons, transcript_cons, List.filter_cons_of_pos (by simp),
        h.answer s t i hst, ih (h.own s t i hst)]
    · rw [addressed_cons_of_ne party hd, transcript_cons,
        List.filter_cons_of_neg (by simpa using hd), ih (h.other d s t i hd hst)]

end Separated
end Machine

/-! ## Parts of a ledger -/

/-- A part of a ledger: some of the keys, and some of the events. -/
structure Region (K : Type u) (E : Type w) where
  key : K → Prop
  event : E → Bool

variable {K : Type u} {V : K → Type v} {E : Type w}

/-- The tiers hold the same under these keys. -/
def Tier.Agrees (p : K → Prop) (t t' : Tier K V) : Prop := ∀ k, p k → t.get k = t'.get k

structure Ledger.Agrees (r : Region K E) (l l' : Ledger K V E) : Prop where
  inst : l.inst.Agrees r.key l'.inst
  persistent : l.persistent.Agrees r.key l'.persistent
  temporary : l.temporary.Agrees r.key l'.temporary
  events : l.events.filter r.event = l'.events.filter r.event

namespace Tier
variable {p : K → Prop} {t t' : Tier K V}

theorem Agrees.refl (p : K → Prop) (t : Tier K V) : t.Agrees p t := fun _ _ => rfl

theorem Agrees.symm (h : t.Agrees p t') : t'.Agrees p t := fun k hk => (h k hk).symm

theorem Agrees.trans {t'' : Tier K V} (h : t.Agrees p t') (h' : t'.Agrees p t'') :
    t.Agrees p t'' := fun k hk => (h k hk).trans (h' k hk)

/-- Tiers that agree on every part of a cover are the same. -/
theorem eq_of_agrees {ι : Type*} {part : ι → K → Prop} (hcover : ∀ k, ∃ i, part i k)
    (h : ∀ i, t.Agrees (part i) t') : t = t' := by
  funext k
  obtain ⟨i, hi⟩ := hcover k
  exact h i k hi

variable [DecidableEq K] {k : K}

theorem Agrees.set (h : t.Agrees p t') (k : K) (v : V k) : (t.set k v).Agrees p (t'.set k v) := by
  intro k' hk'
  by_cases hk : k' = k
  · subst hk
    rw [get_set_self, get_set_self]
  · rw [get_set_of_ne t hk, get_set_of_ne t' hk, h k' hk']

theorem Agrees.remove (h : t.Agrees p t') (k : K) : (t.remove k).Agrees p (t'.remove k) := by
  intro k' hk'
  by_cases hk : k' = k
  · subst hk
    rw [get_remove_self, get_remove_self]
  · rw [get_remove_of_ne t hk, get_remove_of_ne t' hk, h k' hk']

theorem Agrees.set_left (h : t.Agrees p t') (hk : ¬ p k) (v : V k) : (t.set k v).Agrees p t' := by
  intro k' hk'
  have hne : k' ≠ k := fun heq => hk (heq ▸ hk')
  rw [get_set_of_ne t hne, h k' hk']

theorem Agrees.remove_left (h : t.Agrees p t') (hk : ¬ p k) : (t.remove k).Agrees p t' := by
  intro k' hk'
  have hne : k' ≠ k := fun heq => hk (heq ▸ hk')
  rw [get_remove_of_ne t hne, h k' hk']

end Tier

namespace Ledger
variable {r : Region K E} {l l' : Ledger K V E}

theorem Agrees.refl (r : Region K E) (l : Ledger K V E) : l.Agrees r l :=
  ⟨Tier.Agrees.refl _ _, Tier.Agrees.refl _ _, Tier.Agrees.refl _ _, rfl⟩

theorem Agrees.symm (h : l.Agrees r l') : l'.Agrees r l :=
  ⟨h.inst.symm, h.persistent.symm, h.temporary.symm, h.events.symm⟩

theorem Agrees.trans {l'' : Ledger K V E} (h : l.Agrees r l') (h' : l'.Agrees r l'') :
    l.Agrees r l'' :=
  ⟨h.inst.trans h'.inst, h.persistent.trans h'.persistent, h.temporary.trans h'.temporary,
    h.events.trans h'.events⟩

/-! A write to both of two ledgers keeps what they agree on, and a write to one of them as
well, where it is outside the region. -/

theorem Agrees.publish (h : l.Agrees r l') (e : E) : (l.publish e).Agrees r (l'.publish e) :=
  ⟨h.inst, h.persistent, h.temporary, by simp [h.events]⟩

theorem Agrees.publish_left (h : l.Agrees r l') {e : E} (he : r.event e = false) :
    (l.publish e).Agrees r l' :=
  ⟨h.inst, h.persistent, h.temporary, by simp [h.events, he]⟩

variable [DecidableEq K] {k : K}

theorem Agrees.setInst (h : l.Agrees r l') (k : K) (v : V k) :
    (l.setInst k v).Agrees r (l'.setInst k v) :=
  ⟨h.inst.set k v, h.persistent, h.temporary, h.events⟩

theorem Agrees.setPersistent (h : l.Agrees r l') (k : K) (v : V k) :
    (l.setPersistent k v).Agrees r (l'.setPersistent k v) :=
  ⟨h.inst, h.persistent.set k v, h.temporary, h.events⟩

theorem Agrees.removePersistent (h : l.Agrees r l') (k : K) :
    (l.removePersistent k).Agrees r (l'.removePersistent k) :=
  ⟨h.inst, h.persistent.remove k, h.temporary, h.events⟩

theorem Agrees.setTemporary (h : l.Agrees r l') (k : K) (v : V k) :
    (l.setTemporary k v).Agrees r (l'.setTemporary k v) :=
  ⟨h.inst, h.persistent, h.temporary.set k v, h.events⟩

theorem Agrees.removeTemporary (h : l.Agrees r l') (k : K) :
    (l.removeTemporary k).Agrees r (l'.removeTemporary k) :=
  ⟨h.inst, h.persistent, h.temporary.remove k, h.events⟩

theorem Agrees.setInst_left (h : l.Agrees r l') (hk : ¬ r.key k) (v : V k) :
    (l.setInst k v).Agrees r l' :=
  ⟨h.inst.set_left hk v, h.persistent, h.temporary, h.events⟩

theorem Agrees.setPersistent_left (h : l.Agrees r l') (hk : ¬ r.key k) (v : V k) :
    (l.setPersistent k v).Agrees r l' :=
  ⟨h.inst, h.persistent.set_left hk v, h.temporary, h.events⟩

theorem Agrees.removePersistent_left (h : l.Agrees r l') (hk : ¬ r.key k) :
    (l.removePersistent k).Agrees r l' :=
  ⟨h.inst, h.persistent.remove_left hk, h.temporary, h.events⟩

theorem Agrees.setTemporary_left (h : l.Agrees r l') (hk : ¬ r.key k) (v : V k) :
    (l.setTemporary k v).Agrees r l' :=
  ⟨h.inst, h.persistent, h.temporary.set_left hk v, h.events⟩

theorem Agrees.removeTemporary_left (h : l.Agrees r l') (hk : ¬ r.key k) :
    (l.removeTemporary k).Agrees r l' :=
  ⟨h.inst, h.persistent, h.temporary.remove_left hk, h.events⟩

end Ledger
