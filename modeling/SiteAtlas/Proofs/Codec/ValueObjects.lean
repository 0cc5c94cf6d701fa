import SiteAtlas.Config.Settings
import SiteAtlas.Page.Change
import SiteAtlas.Page.NodeMatch
import SiteAtlas.Page.PageResult
import SiteAtlas.Page.Path
import SiteAtlas.Proofs.Codec.Record
import SiteAtlas.Proofs.Wire.Envelope
import SiteAtlas.Service.Status
import SiteAtlas.Site.Compare
import SiteAtlas.Site.MapInfo

/-!
# Value objects read back

Every value that the client gives to its caller is read back from its JSON form, if all doubles in
it are finite: JSON has no other ones.
-/
namespace SiteAtlas

open Codec (readsBack_double_iff readsBack_optional readsBack_optional_double readsBack_table)

namespace Features

def Finite (f : Features) : Prop := ∀ e ∈ f.toList, Decimal.isFinite e.2 = true

instance (f : Features) : Decidable f.Finite :=
  inferInstanceAs (Decidable (∀ e ∈ f.toList, Decimal.isFinite e.2 = true))

theorem readsBack {f : Features} (h : f.Finite) : codec.ReadsBack f :=
  .imap (readsBack_table Codec.Key.lawful_byte fun e he => readsBack_double_iff.2 (h e he)) rfl

end Features

namespace NodeMatch

structure Finite (m : NodeMatch) : Prop where
  confidence : Decimal.isFinite m.confidence = true
  features : m.features.Finite
  similarity : ∀ x ∈ m.similarity, Decimal.isFinite x = true

theorem lawful : shape.Lawful where
  known := by simp [shape, Shape.field?, Field.Known]
  get_put := by simp [shape]
  get_put_of_ne := by simp [shape]
  ext := by
    rintro ⟨⟩ ⟨⟩ h
    simpa [shape] using h

theorem readsBack {m : NodeMatch} (h : m.Finite) : shape.codec.ReadsBack m := by
  apply lawful.readsBack
  simp [shape, h.confidence, Features.readsBack h.features, readsBack_optional_double h.similarity]

end NodeMatch

theorem Opcode.readsBack (o : Opcode) : codec.ReadsBack o :=
  .imap (Codec.readsBack_pairAs _ _ (Codec.readsBack_word8 o.category)
    (Codec.readsBack_word8 o.action)) rfl

namespace PathAction

theorem lawful : shape.Lawful where
  known := by simp [shape, Shape.field?, Field.Known]
  get_put := by simp [shape]
  get_put_of_ne := by simp [shape]
  ext := by
    rintro ⟨⟩ ⟨⟩ h
    simpa [shape] using h

theorem readsBack (a : PathAction) : shape.codec.ReadsBack a := by
  apply lawful.readsBack
  simp [shape, Opcode.readsBack]

end PathAction

namespace Path

theorem lawful : shape.Lawful where
  known := by simp [shape, Shape.field?, Field.Known]
  get_put := by simp [shape]
  get_put_of_ne := by simp [shape]
  ext := by
    rintro ⟨⟩ ⟨⟩ h
    simpa [shape] using h

theorem readsBack {p : Path} (h : Decimal.isFinite p.weight = true) : shape.codec.ReadsBack p := by
  apply lawful.readsBack
  simp [shape, h, PathAction.readsBack]

end Path

namespace RefreshResult

theorem lawful : shape.Lawful where
  known := by simp [shape, Shape.field?, Field.Known]
  get_put := by simp [shape]
  get_put_of_ne := by simp [shape]
  ext := by
    rintro ⟨⟩ ⟨⟩ h
    simpa [shape] using h

theorem readsBack (r : RefreshResult) : shape.codec.ReadsBack r := by
  apply lawful.readsBack
  simp [shape]

end RefreshResult

namespace ActResult

theorem lawful : shape.Lawful where
  known := by simp [shape, Shape.field?, Field.Known]
  get_put := by simp [shape]
  get_put_of_ne := by simp [shape]
  ext := by
    rintro ⟨⟩ ⟨⟩ h
    simpa [shape] using h

theorem readsBack {r : ActResult} (h : r.features.Finite) : shape.codec.ReadsBack r := by
  apply lawful.readsBack
  simp [shape, Features.readsBack h]

end ActResult

namespace PageResult

structure Finite (p : PageResult) : Prop where
  confidence : Decimal.isFinite p.confidence = true
  features : p.features.Finite

theorem lawful : shape.Lawful where
  known := by simp [shape, Shape.field?, Field.Known]
  get_put := by simp [shape]
  get_put_of_ne := by simp [shape]
  ext := by
    rintro ⟨⟩ ⟨⟩ h
    simpa [shape] using h

theorem readsBack {p : PageResult} (h : p.Finite) : shape.codec.ReadsBack p := by
  apply lawful.readsBack
  simp [shape, h.confidence, Features.readsBack h.features]

end PageResult

namespace PoolStatus

theorem lawful : shape.Lawful where
  known := by simp [shape, Shape.field?, Field.Known]
  get_put := by simp [shape]
  get_put_of_ne := by simp [shape]
  ext := by
    rintro ⟨⟩ ⟨⟩ h
    simpa [shape] using h

theorem readsBack {p : PoolStatus} (h : Decimal.isFinite p.memory = true) :
    shape.codec.ReadsBack p := by
  apply lawful.readsBack
  simp [shape, h]

end PoolStatus

namespace RuntimeStatus

structure Finite (s : RuntimeStatus) : Prop where
  uptime : Decimal.isFinite s.uptime = true
  memory : Decimal.isFinite s.memory = true
  pool : ∀ p ∈ s.pool, Decimal.isFinite p.memory = true

theorem lawful : shape.Lawful where
  known := by simp [shape, Shape.field?, Field.Known]
  get_put := by simp [shape]
  get_put_of_ne := by simp [shape]
  ext := by
    rintro ⟨⟩ ⟨⟩ h
    simpa [shape] using h

theorem readsBack {s : RuntimeStatus} (h : s.Finite) : shape.codec.ReadsBack s := by
  have hpool : (Codec.optional PoolStatus.shape.codec).ReadsBack s.pool :=
    readsBack_optional fun p hp => ⟨PoolStatus.readsBack (h.pool p hp), Json.noConfusion⟩
  apply lawful.readsBack
  simp [shape, h.uptime, h.memory, hpool]

end RuntimeStatus

namespace HandshakeResult

theorem lawful : shape.Lawful where
  known := by simp [shape, Shape.field?, Field.Known]
  get_put := by simp [shape]
  get_put_of_ne := by simp [shape]
  ext := by
    rintro ⟨⟩ ⟨⟩ h
    simpa [shape] using h

theorem readsBack (r : HandshakeResult) : shape.codec.ReadsBack r := by
  apply lawful.readsBack
  simp [shape]

end HandshakeResult

namespace MapInfo

theorem lawful : shape.Lawful where
  known := by simp [shape, Shape.field?, Field.Known]
  get_put := by simp [shape]
  get_put_of_ne := by simp [shape]
  ext := by
    rintro ⟨⟩ ⟨⟩ h
    simpa [shape] using h

theorem readsBack (i : MapInfo) : shape.codec.ReadsBack i := by
  apply lawful.readsBack
  simp [shape]

end MapInfo

namespace CompareResult

def Finite (c : CompareResult) : Prop :=
  ∀ row ∈ c.similarities.entries, ∀ e ∈ row.2.entries, Decimal.isFinite e.2 = true

instance (c : CompareResult) : Decidable c.Finite := inferInstanceAs
  (Decidable (∀ row ∈ c.similarities.entries, ∀ e ∈ row.2.entries, Decimal.isFinite e.2 = true))

theorem lawful : shape.Lawful where
  known := by simp [shape, Shape.field?, Field.Known]
  get_put := by simp [shape]
  get_put_of_ne := by simp [shape]
  ext := by
    rintro ⟨⟩ ⟨⟩ h
    simpa [shape] using h

theorem readsBack {c : CompareResult} (h : c.Finite) : shape.codec.ReadsBack c := by
  have hunique := readsBack_table Codec.Key.lawful_name (c := Codec.list Codec.word8)
    (t := c.unique) fun e _ => by simp
  have hrows : ∀ row ∈ c.similarities.entries,
      (Codec.table Codec.Key.name Codec.double).ReadsBack row.2 := fun row hrow =>
    readsBack_table Codec.Key.lawful_name fun e he => readsBack_double_iff.2 (h row hrow e he)
  have hsimilarities := readsBack_table Codec.Key.lawful_name hrows
  apply lawful.readsBack
  simp [shape, hunique, hsimilarities]

end CompareResult

namespace Settings

theorem lawful (env : Environment) : (shape env).Lawful where
  known := by simp [shape, Shape.field?, Field.Known]
  get_put := by simp [shape]
  get_put_of_ne := by simp [shape]
  ext := by
    rintro ⟨⟩ ⟨⟩ h
    simpa [shape] using h

theorem readsBack (env : Environment) (s : Settings) : (shape env).codec.ReadsBack s := by
  apply (lawful env).readsBack
  simp [shape]

end Settings

/-- Decoding what is written for a value gives the value again, so no field loses its presence, no
list its order and no table a key. A field with an older name is written under a name that leads
back to it. -/
theorem value_objects_read_back :
    (∀ m : NodeMatch, m.Finite → NodeMatch.shape.codec.ReadsBack m) ∧
    (∀ p : Path, Decimal.isFinite p.weight = true → Path.shape.codec.ReadsBack p) ∧
    (∀ a : PathAction, PathAction.shape.codec.ReadsBack a) ∧
    (∀ r : RefreshResult, RefreshResult.shape.codec.ReadsBack r) ∧
    (∀ r : ActResult, r.features.Finite → ActResult.shape.codec.ReadsBack r) ∧
    (∀ p : PageResult, p.Finite → PageResult.shape.codec.ReadsBack p) ∧
    (∀ p : PoolStatus, Decimal.isFinite p.memory = true → PoolStatus.shape.codec.ReadsBack p) ∧
    (∀ s : RuntimeStatus, s.Finite → RuntimeStatus.shape.codec.ReadsBack s) ∧
    (∀ r : HandshakeResult, HandshakeResult.shape.codec.ReadsBack r) ∧
    (∀ i : MapInfo, MapInfo.shape.codec.ReadsBack i) ∧
    (∀ c : CompareResult, c.Finite → CompareResult.shape.codec.ReadsBack c) ∧
    (∀ f : Features, f.Finite → Features.codec.ReadsBack f) ∧
    (∀ o : Opcode, Opcode.codec.ReadsBack o) ∧
    (∀ e : ServiceError, ServiceError.shape.codec.ReadsBack e) ∧
    (∀ (env : Environment) (s : Settings), (Settings.shape env).codec.ReadsBack s) ∧
    ∀ f ∈ RuntimeStatus.shape.fields, RuntimeStatus.shape.field? f.name = some f :=
  ⟨fun _ => NodeMatch.readsBack, fun _ => Path.readsBack, PathAction.readsBack,
    RefreshResult.readsBack, fun _ => ActResult.readsBack, fun _ => PageResult.readsBack,
    fun _ => PoolStatus.readsBack, fun _ => RuntimeStatus.readsBack, HandshakeResult.readsBack,
    MapInfo.readsBack, fun _ => CompareResult.readsBack, fun _ => Features.readsBack,
    Opcode.readsBack, ServiceError.decode_encode, Settings.readsBack, RuntimeStatus.lawful.known⟩

/-- One value of each type that holds doubles, with optional fields given and left out, and with
keys whose texts are sorted otherwise than their numbers. -/
theorem value_objects_read_back_filled :
    let features : Features := .ofList [(2, 0.5), (10, -0.0), (200, 4.75)]
    let node : NodeMatch := ⟨7, "https://a.com/\u00e9", 255, 0.25, features, some 0.75⟩
    let path : Path := ⟨[3, 1, 2], 0.1, 2, [⟨1, ⟨2, 255⟩⟩]⟩
    let act : ActResult := ⟨true, none, features⟩
    let page : PageResult := ⟨"a.com", "b.com", 4, 1.0, features, some ""⟩
    let pool : PoolStatus := ⟨1, 8, 64.0⟩
    let status : RuntimeStatus := ⟨"1.0", 12.5, 1, 2, 0.1, some pool⟩
    let result : CompareResult := ⟨["b", "a"], [1, 2], .ofList [("b", [4]), ("a", [])],
      .ofList [("a", .ofList [("a", 1.0), ("b", 0.333)])]⟩
    (node.Finite ∧ NodeMatch.shape.codec.ReadsBack node) ∧
    (Decimal.isFinite path.weight = true ∧ Path.shape.codec.ReadsBack path) ∧
    (act.features.Finite ∧ ActResult.shape.codec.ReadsBack act) ∧
    (page.Finite ∧ PageResult.shape.codec.ReadsBack page) ∧
    (Decimal.isFinite pool.memory = true ∧ PoolStatus.shape.codec.ReadsBack pool) ∧
    (status.Finite ∧ RuntimeStatus.shape.codec.ReadsBack status) ∧
    (result.Finite ∧ CompareResult.shape.codec.ReadsBack result) ∧
    (features.Finite ∧ Features.codec.ReadsBack features) := by
  intro features node path act page pool status result
  have hfeatures : features.Finite := by decide
  have hnode : node.Finite := ⟨by decide, hfeatures, by decide⟩
  have hpath : Decimal.isFinite path.weight = true := by decide
  have hpage : page.Finite := ⟨by decide, hfeatures⟩
  have hpool : Decimal.isFinite pool.memory = true := by decide
  have hstatus : status.Finite := ⟨by decide, by decide, fun p hp => Option.some.inj hp ▸ hpool⟩
  have hresult : result.Finite := by decide
  obtain ⟨node', path', -, -, act', page', pool', status', -, -, result', features', -⟩ :=
    value_objects_read_back
  exact ⟨⟨hnode, node' node hnode⟩, ⟨hpath, path' path hpath⟩, ⟨hfeatures, act' act hfeatures⟩,
    ⟨hpage, page' page hpage⟩, ⟨hpool, pool' pool hpool⟩, ⟨hstatus, status' status hstatus⟩,
    ⟨hresult, result' result hresult⟩, ⟨hfeatures, features' features hfeatures⟩⟩

end SiteAtlas
