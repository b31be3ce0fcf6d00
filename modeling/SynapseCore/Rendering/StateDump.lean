import SynapseCore.Foundation.Canonical
import SynapseCore.Foundation.Text

/-! The dump of the ledger state that profiles are compared by. The XDR encoding is the
host's; the dump adds hex, decimal numbers, separators and a sort. -/

namespace Synapse
open Text

/-- The entries of a ledger snapshot: key, entry data, live-until ledger if there is one. -/
abbrev LedgerSnapshot (Key Data : Type) := List (Key × Data × Option UInt32)

/-- `{b:02x}`: two lower-case digits. -/
def hexByte (b : UInt8) : Text := [Nat.digitChar (b.toNat / 16), Nat.digitChar (b.toNat % 16)]

def hex (bytes : List UInt8) : Text := bytes.flatMap hexByte

def xdrHex {T : Type} (toXdr : T → List UInt8) (v : T) : Text := hex (toXdr v)

def renderTtl (liveUntil : Option UInt32) : Text :=
  match liveUntil with
  | some l => display l.toNat
  | none => "none".toList

section Dump
variable {Key Data : Type} (xdrKey : Key → List UInt8) (xdrData : Data → List UInt8)

def renderLedgerEntry (entry : Key × Data × Option UInt32) : Text :=
  xdrHex xdrKey entry.1 ++ " => ".toList ++ xdrHex xdrData entry.2.1 ++ " ttl=".toList ++
    renderTtl entry.2.2

/-- The rows, sorted. Comparing them by characters is comparing them by bytes. -/
def renderLedgerState (snapshot : LedgerSnapshot Key Data) : List Text :=
  (snapshot.map (renderLedgerEntry xdrKey xdrData)).mergeSort fun row row' => decide (row ≤ row')

end Dump

/-! ## The parts of a row can be read back -/

theorem digitChar_injective {m n : Nat} (hm : m < 16) (hn : n < 16)
    (h : Nat.digitChar m = Nat.digitChar n) : m = n := by
  have hall : ∀ i j : Fin 16, Nat.digitChar i = Nat.digitChar j → i = j := by decide
  exact Fin.mk.inj (hall ⟨m, hm⟩ ⟨n, hn⟩ h)

theorem digitChar_ne_space {n : Nat} (h : n < 16) : Nat.digitChar n ≠ ' ' := by
  have hall : ∀ i : Fin 16, Nat.digitChar i ≠ ' ' := by decide
  exact hall ⟨n, h⟩

theorem hexByte_injective : Function.Injective hexByte := by
  intro b b' h
  have hb : b.toNat < 256 := b.toNat_lt
  have hb' : b'.toNat < 256 := b'.toNat_lt
  obtain ⟨hhigh, hrest⟩ := List.cons.inj h
  have hlow := (List.cons.inj hrest).1
  have hhigh' := digitChar_injective (by omega) (by omega) hhigh
  have hlow' := digitChar_injective (by omega) (by omega) hlow
  apply UInt8.toNat_inj.mp
  omega

theorem hex_injective : Function.Injective hex :=
  Canonical.flatMap_injective two_pos (fun _ => rfl) hexByte_injective

theorem space_not_mem_hex (bytes : List UInt8) : ' ' ∉ hex bytes := by
  intro hmem
  obtain ⟨b, _, hb⟩ := List.mem_flatMap.mp hmem
  have hlt : b.toNat < 256 := b.toNat_lt
  rcases List.mem_cons.mp hb with heq | hb
  · exact digitChar_ne_space (by omega) heq.symm
  · exact digitChar_ne_space (by omega) (List.mem_singleton.mp hb).symm

theorem renderTtl_injective : Function.Injective renderTtl := by
  have hnone : "none".toList = ['n', 'o', 'n', 'e'] := by rfl
  have hdigits : ∀ n, display n ≠ "none".toList := by
    intro n heq
    have hmem : 'n' ∈ display n := by
      rw [heq, hnone]
      decide
    exact not_mem_display rfl n hmem
  intro ttl ttl' h
  rcases ttl with _ | l <;> rcases ttl' with _ | l'
  · rfl
  · exact absurd h.symm (hdigits _)
  · exact absurd h (hdigits _)
  · rw [UInt32.toNat_inj.mp (display_injective h)]

section Canonical
variable {Key Data : Type} {xdrKey : Key → List UInt8} {xdrData : Data → List UInt8}

theorem renderLedgerEntry_injective (hkey : Function.Injective xdrKey)
    (hdata : Function.Injective xdrData) :
    Function.Injective (renderLedgerEntry xdrKey xdrData) := by
  have harrow : " => ".toList = [' ', '=', '>', ' '] := by rfl
  have httl : " ttl=".toList = [' ', 't', 't', 'l', '='] := by rfl
  rintro ⟨key, data, ttl⟩ ⟨key', data', ttl'⟩ h
  unfold renderLedgerEntry at h
  rw [harrow, httl] at h
  simp only [List.append_assoc, List.cons_append, List.nil_append] at h
  -- neither hex text has a space, so the separators fall on each other
  obtain ⟨hkeys, hrest⟩ := append_sep_inj (space_not_mem_hex _) (space_not_mem_hex _) h
  simp only [List.cons.injEq, true_and] at hrest
  obtain ⟨hdatas, httls⟩ := append_sep_inj (space_not_mem_hex _) (space_not_mem_hex _) hrest
  simp only [List.cons.injEq, true_and] at httls
  rw [hkey (hex_injective hkeys), hdata (hex_injective hdatas), renderTtl_injective httls]

end Canonical

/-- **The state dump is canonical and faithful.** Two snapshots have one dump exactly if
they hold the same entries, each as often, in whatever order. -/
theorem state_dump_canonical {Key Data : Type} (xdrKey : Key → List UInt8)
    (xdrData : Data → List UInt8) (hkey : Function.Injective xdrKey)
    (hdata : Function.Injective xdrData) (snapshot snapshot' : LedgerSnapshot Key Data) :
    renderLedgerState xdrKey xdrData snapshot = renderLedgerState xdrKey xdrData snapshot' ↔
      (snapshot : Multiset (Key × Data × Option UInt32)) = snapshot' :=
  Canonical.mergeSort_map_eq_iff (renderLedgerEntry_injective hkey hdata) snapshot snapshot'

/-! The fixture has config settings for entries, under their own XDR encoding. -/

/-- An XDR `uint32`: four bytes, the highest first. -/
def xdrWord (n : UInt32) : List UInt8 :=
  [UInt8.ofNat (n.toNat / 2 ^ 24), UInt8.ofNat (n.toNat / 2 ^ 16 % 256),
    UInt8.ofNat (n.toNat / 2 ^ 8 % 256), UInt8.ofNat (n.toNat % 256)]

theorem xdrWord_injective : Function.Injective xdrWord := by
  have hbyte : ∀ {m n : Nat}, m < 256 → n < 256 → UInt8.ofNat m = UInt8.ofNat n → m = n := by
    intro m n hm hn h
    rw [← UInt8.toNat_ofNat_of_lt' hm, h, UInt8.toNat_ofNat_of_lt' hn]
  intro m n h
  have hm : m.toNat < 2 ^ 32 := m.toNat_lt
  have hn : n.toNat < 2 ^ 32 := n.toNat_lt
  simp only [xdrWord, List.cons.injEq, and_true] at h
  obtain ⟨hfirst, hsecond, hthird, hfourth⟩ := h
  have hfirst' := hbyte (by omega) (by omega) hfirst
  have hsecond' := hbyte (by omega) (by omega) hsecond
  have hthird' := hbyte (by omega) (by omega) hthird
  have hfourth' := hbyte (by omega) (by omega) hfourth
  apply UInt32.toNat_inj.mp
  omega

/-- `LedgerKey::ConfigSetting` with its setting id. -/
def configKeyXdr (settingId : UInt32) : List UInt8 := xdrWord 8 ++ xdrWord settingId

/-- `LedgerEntryData::ConfigSetting` with the maximal contract size. -/
def configDataXdr (maxSizeBytes : UInt32) : List UInt8 :=
  xdrWord 8 ++ xdrWord 0 ++ xdrWord maxSizeBytes

theorem state_dump_canonical_fixture :
    renderLedgerState configKeyXdr configDataXdr [(0, 65536, none)] ≠
      renderLedgerState configKeyXdr configDataXdr [(0, 65536, some 7)] := by
  have hkey : Function.Injective configKeyXdr := fun m n h =>
    xdrWord_injective (List.append_cancel_left h)
  have hdata : Function.Injective configDataXdr := fun m n h =>
    xdrWord_injective (List.append_cancel_left h)
  intro hsame
  have hentries := (state_dump_canonical configKeyXdr configDataXdr hkey hdata _ _).mp hsame
  rw [Multiset.coe_eq_coe, List.singleton_perm_singleton] at hentries
  cases hentries

end Synapse
