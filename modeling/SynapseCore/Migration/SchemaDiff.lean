import Mathlib.Data.Nat.Basic
import SynapseCore.Contract.Types
import SynapseCore.Foundation.Spans

/-! Schema diffs of the migration manifest. `compare_schema_versions` is read as its loop
over the manifest followed by the result the damaged fragment puts further down. -/

namespace Synapse
open Spans

structure SchemaChange where
  version : UInt32
  kind : Str
  description : Str
  deriving DecidableEq

abbrev MigrationManifest := List SchemaChange

structure SchemaDiff where
  fromVersion : UInt32
  toVersion : UInt32
  changes : List SchemaChange
  empty : Bool
  deriving DecidableEq

/-- The `for` loop: the changes above `lo` and up to `hi` are pushed in manifest order. -/
def schemaChangesLoop (lo hi : UInt32) : MigrationManifest → List SchemaChange → List SchemaChange
  | [], changes => changes
  | change :: rest, changes =>
    schemaChangesLoop lo hi rest
      (if change.version > lo ∧ change.version ≤ hi then changes ++ [change] else changes)

def compareSchemaVersions (manifest : MigrationManifest) (fromVersion toVersion : UInt32) :
    SchemaDiff :=
  let lo := if fromVersion ≤ toVersion then fromVersion else toVersion
  let hi := if fromVersion ≤ toVersion then toVersion else fromVersion
  let changes := schemaChangesLoop lo hi manifest []
  { fromVersion := lo, toVersion := hi, changes := changes, empty := changes.isEmpty }

/-- An upgrade through the versions in turn: the changes of each step's diff. -/
def stepwiseChanges (manifest : MigrationManifest) : UInt32 → List UInt32 → List SchemaChange
  | _, [] => []
  | version, next :: versions =>
    (compareSchemaVersions manifest version next).changes ++
      stepwiseChanges manifest next versions

def SchemaChange.key (change : SchemaChange) : Nat := change.version.toNat

/-- Entries ordered by ascending version; a version may repeat. -/
def Ascending (manifest : MigrationManifest) : Prop :=
  manifest.Pairwise fun change change' => change.version ≤ change'.version

theorem schemaChangesLoop_eq (lo hi : UInt32) (manifest : MigrationManifest)
    (changes : List SchemaChange) :
    schemaChangesLoop lo hi manifest changes =
      changes ++ span SchemaChange.key lo.toNat hi.toNat manifest := by
  induction manifest generalizing changes with
  | nil => simp [schemaChangesLoop, span]
  | cons change rest ih =>
    have hkey : change.version > lo ∧ change.version ≤ hi ↔
        lo.toNat < change.key ∧ change.key ≤ hi.toNat := by
      rw [gt_iff_lt, UInt32.lt_iff_toNat_lt, UInt32.le_iff_toNat_le, SchemaChange.key]
    rw [schemaChangesLoop, ih]
    by_cases hin : change.version > lo ∧ change.version ≤ hi
    · rw [if_pos hin, span_cons_of_mem SchemaChange.key (hkey.mp hin), List.append_assoc,
        List.singleton_append]
    · rw [if_neg hin, span_cons_of_not_mem SchemaChange.key fun h => hin (hkey.mpr h)]

theorem compareSchemaVersions_changes (manifest : MigrationManifest) {a b : UInt32} (h : a ≤ b) :
    (compareSchemaVersions manifest a b).changes =
      span SchemaChange.key a.toNat b.toNat manifest := by
  unfold compareSchemaVersions
  simp only [if_pos h, schemaChangesLoop_eq, List.nil_append]

theorem span_version_eq_filter (a c : UInt32) (manifest : MigrationManifest) :
    span SchemaChange.key a.toNat c.toNat manifest =
      manifest.filter fun change => decide (a < change.version ∧ change.version ≤ c) := by
  unfold span
  apply List.filter_congr
  intro change _
  rw [← Bool.decide_and]
  apply decide_eq_decide.mpr
  rw [UInt32.lt_iff_toNat_lt, UInt32.le_iff_toNat_le, SchemaChange.key]

theorem compareSchemaVersions_versions (manifest : MigrationManifest) {a b : UInt32} (h : a ≤ b) :
    (compareSchemaVersions manifest a b).fromVersion = a ∧
      (compareSchemaVersions manifest a b).toVersion = b := by
  unfold compareSchemaVersions
  simp only [if_pos h, and_self]

theorem compareSchemaVersions_empty (manifest : MigrationManifest) (a b : UInt32) :
    (compareSchemaVersions manifest a b).empty =
      (compareSchemaVersions manifest a b).changes.isEmpty := rfl

theorem compareSchemaVersions_comm (manifest : MigrationManifest) (a b : UInt32) :
    compareSchemaVersions manifest a b = compareSchemaVersions manifest b a := by
  unfold compareSchemaVersions
  rcases UInt32.le_total a b with hle | hle
  · by_cases hback : b ≤ a
    · rw [UInt32.le_antisymm hle hback]
    · simp only [if_pos hle, if_neg hback]
  · by_cases hback : a ≤ b
    · rw [UInt32.le_antisymm hle hback]
    · simp only [if_pos hle, if_neg hback]

theorem ascending_key {manifest : MigrationManifest} (h : Ascending manifest) :
    manifest.Pairwise fun change change' => change.key ≤ change'.key :=
  h.imp fun hle => UInt32.le_iff_toNat_le.mp hle

theorem stepwiseChanges_eq (manifest : MigrationManifest) {version : UInt32}
    {versions : List UInt32} (h : (version :: versions).Pairwise (· ≤ ·)) :
    stepwiseChanges manifest version versions =
      spans SchemaChange.key manifest version.toNat (versions.map UInt32.toNat) := by
  induction versions generalizing version with
  | nil => rfl
  | cons next versions ih =>
    obtain ⟨hversion, hrest⟩ := List.pairwise_cons.mp h
    have hle : version ≤ next := hversion next (List.mem_cons_self ..)
    rw [stepwiseChanges, compareSchemaVersions_changes manifest hle, ih hrest]
    rfl

/-- **Schema diffs compose.** A diff holds the manifest's entries above the one version and
up to the other. Cutting an upgrade at an intermediate version, or at any ascending chain of
versions, neither loses nor doubles a change, and keeps their order if the manifest is in
order. -/
theorem schema_diffs_compose (manifest : MigrationManifest) :
    (∀ a c : UInt32, a ≤ c →
      let diff := compareSchemaVersions manifest a c
      diff.fromVersion = a ∧ diff.toVersion = c ∧
      diff.changes = manifest.filter
        (fun change => decide (a < change.version ∧ change.version ≤ c)) ∧
      (diff.empty = true ↔ diff.changes = [])) ∧
    (∀ a b c : UInt32, a ≤ b → b ≤ c →
      ((compareSchemaVersions manifest a b).changes ++
        (compareSchemaVersions manifest b c).changes).Perm
          (compareSchemaVersions manifest a c).changes ∧
      (Ascending manifest → (compareSchemaVersions manifest a b).changes ++
        (compareSchemaVersions manifest b c).changes =
          (compareSchemaVersions manifest a c).changes) ∧
      (compareSchemaVersions manifest a c).empty =
        ((compareSchemaVersions manifest a b).empty &&
          (compareSchemaVersions manifest b c).empty)) ∧
    (∀ x y, compareSchemaVersions manifest x y = compareSchemaVersions manifest y x) ∧
    (∀ version versions, (version :: versions).Pairwise (· ≤ ·) →
      let last := (version :: versions).getLast (List.cons_ne_nil version versions)
      (stepwiseChanges manifest version versions).Perm
        (compareSchemaVersions manifest version last).changes ∧
      (Ascending manifest → stepwiseChanges manifest version versions =
        (compareSchemaVersions manifest version last).changes)) := by
  refine ⟨?_, ?_, compareSchemaVersions_comm manifest, ?_⟩
  · intro a c hac
    obtain ⟨hfrom, hto⟩ := compareSchemaVersions_versions manifest hac
    refine ⟨hfrom, hto, ?_, ?_⟩
    · rw [compareSchemaVersions_changes manifest hac, span_version_eq_filter]
    · rw [compareSchemaVersions_empty, List.isEmpty_iff]
  · intro a b c hab hbc
    have hab' : a.toNat ≤ b.toNat := UInt32.le_iff_toNat_le.mp hab
    have hbc' : b.toNat ≤ c.toNat := UInt32.le_iff_toNat_le.mp hbc
    have hac : a ≤ c := UInt32.le_trans hab hbc
    simp only [compareSchemaVersions_empty, compareSchemaVersions_changes manifest hab,
      compareSchemaVersions_changes manifest hbc, compareSchemaVersions_changes manifest hac]
    have hperm := span_append_perm SchemaChange.key hab' hbc' manifest
    refine ⟨hperm, ?_, ?_⟩
    · intro hasc
      exact span_append_of_sorted SchemaChange.key hab' hbc' (ascending_key hasc)
    · rw [← hperm.isEmpty_eq]
      cases span SchemaChange.key a.toNat b.toNat manifest <;> rfl
  · intro version versions hchain
    have hcuts : (version.toNat :: versions.map UInt32.toNat).Pairwise (· ≤ ·) := by
      rw [← List.map_cons, List.pairwise_map]
      exact hchain.imp fun hle => UInt32.le_iff_toNat_le.mp hle
    have hend : (version.toNat :: versions.map UInt32.toNat).getLast (List.cons_ne_nil _ _) =
        ((version :: versions).getLast (List.cons_ne_nil version versions)).toNat := by
      simp only [← List.map_cons, List.getLast_map]
    have hlast : version ≤ (version :: versions).getLast (List.cons_ne_nil version versions) := by
      rw [UInt32.le_iff_toNat_le, ← hend]
      exact le_getLast hcuts
    dsimp only
    rw [stepwiseChanges_eq manifest hchain, compareSchemaVersions_changes manifest hlast, ← hend]
    constructor
    · exact spans_perm SchemaChange.key manifest hcuts
    · intro hasc
      exact spans_of_sorted SchemaChange.key manifest hcuts (ascending_key hasc)

/-- Out of order, with a version that occurs twice. -/
def testManifest : MigrationManifest :=
  [⟨3, [0x63], []⟩, ⟨1, [0x61], []⟩, ⟨3, [0x64], []⟩, ⟨2, [0x62], []⟩]

theorem schema_diffs_compose_fixture :
    (compareSchemaVersions testManifest 0 2).changes = [⟨1, [0x61], []⟩, ⟨2, [0x62], []⟩] ∧
    (compareSchemaVersions testManifest 2 3).changes = [⟨3, [0x63], []⟩, ⟨3, [0x64], []⟩] ∧
    ((compareSchemaVersions testManifest 0 2).changes ++
      (compareSchemaVersions testManifest 2 3).changes).Perm
        (compareSchemaVersions testManifest 0 3).changes := by
  obtain ⟨hdiff, hcut, -⟩ := schema_diffs_compose testManifest
  refine ⟨?_, ?_, (hcut 0 2 3 (by decide) (by decide)).1⟩
  · exact (hdiff 0 2 (by decide)).2.2.1.trans (by decide)
  · exact (hdiff 2 3 (by decide)).2.2.1.trans (by decide)

end Synapse
