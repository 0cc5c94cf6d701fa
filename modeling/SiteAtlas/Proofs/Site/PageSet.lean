import SiteAtlas.Proofs.Table
import SiteAtlas.Site.PageSet

/-!
# Sets of page types as finite sets

What a set contains after each operation, and how many page types that are.
-/
namespace SiteAtlas.PageSet

instance : Membership UInt8 PageSet := ⟨fun s type => s.contains type = true⟩

variable {s t : PageSet} {type : UInt8} {types : List UInt8}

theorem mem_toList : type ∈ s.toList ↔ type ∈ s := Table.mem_keys_iff

@[simp] theorem mem_ofList : type ∈ ofList types ↔ type ∈ types := by
  change ((Table.ofList (types.map fun t => (t, ()))).get? type).isSome ↔ _
  rw [Table.isSome_get?_ofList_iff]
  simp

@[simp] theorem not_mem_empty : type ∉ empty := Bool.false_ne_true

@[simp] theorem mem_union : type ∈ s.union t ↔ type ∈ s ∨ type ∈ t := by
  rw [union, mem_ofList, List.mem_append, mem_toList, mem_toList]

@[simp] theorem mem_inter : type ∈ s.inter t ↔ type ∈ s ∧ type ∈ t := by
  rw [inter, mem_ofList, List.mem_filter, mem_toList]
  rfl

@[simp] theorem mem_diff : type ∈ s.diff t ↔ type ∈ s ∧ type ∉ t := by
  rw [diff, mem_ofList, List.mem_filter, mem_toList, Bool.not_eq_true']
  exact and_congr_right fun _ => Bool.eq_false_iff

@[ext] theorem ext (h : ∀ type, type ∈ s ↔ type ∈ t) : s = t := by
  obtain ⟨a⟩ := s
  obtain ⟨b⟩ := t
  refine congrArg PageSet.mk (Table.ext_get? fun type => ?_)
  have hmem : (a.get? type).isSome ↔ (b.get? type).isSome := h type
  generalize a.get? type = o, b.get? type = p at hmem
  cases o <;> cases p <;> simp at hmem ⊢

/-- A set is listed in strictly ascending order. -/
theorem pairwise_toList (s : PageSet) : s.toList.Pairwise (· < ·) :=
  List.pairwise_map.2 (s.table.ascending.imp Std.compare_eq_lt.1)

def members (s : PageSet) : Finset UInt8 := s.toList.toFinset

@[simp] theorem mem_members : type ∈ s.members ↔ type ∈ s := by
  rw [members, List.mem_toFinset, mem_toList]

@[simp] theorem members_union (s t : PageSet) : (s.union t).members = s.members ∪ t.members := by
  ext type
  simp

@[simp] theorem members_inter (s t : PageSet) : (s.inter t).members = s.members ∩ t.members := by
  ext type
  simp

theorem size_eq_card (s : PageSet) : s.size = s.members.card := s.table.size_eq_card

end SiteAtlas.PageSet
