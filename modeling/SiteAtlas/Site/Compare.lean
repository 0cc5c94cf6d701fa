import SiteAtlas.Codec.Shape
import SiteAtlas.Site.PageSet

/-!
Comparison of sites by the page types that occur on them: the types common to all, those that only
one site has, and how similar the sites are pairwise.

Sites are listed with their names. Of sites that share a name, the last one counts in the tables.
-/
namespace SiteAtlas

structure CompareResult where
  domains : List String
  /-- the page types of every site, in ascending order -/
  common : List UInt8
  /-- for each site the page types that no other one has -/
  unique : Table String (List UInt8)
  similarities : Table String (Table String Float)
  deriving Inhabited

namespace CompareResult

def shape : Shape CompareResult where
  title := "CompareResult"
  blank := ⟨[], [], .empty, .empty⟩
  fields := [
    ⟨"domains", [], .required, Codec.list Codec.text, domains,
      fun v r => { r with domains := v }⟩,
    ⟨"common_page_types", [], .required, Codec.list Codec.word8, common,
      fun v r => { r with common := v }⟩,
    ⟨"unique_per_domain", [], .required, Codec.table Codec.Key.name (Codec.list Codec.word8),
      unique, fun v r => { r with unique := v }⟩,
    ⟨"similarity_matrix", [], .required,
      Codec.table Codec.Key.name (Codec.table Codec.Key.name Codec.double), similarities,
      fun v r => { r with similarities := v }⟩]

def similarity? (c : CompareResult) (a b : String) : Option Float := do
  (← c.similarities.get? a).get? b

def display (c : CompareResult) : String :=
  s!"CompareResult(domains={Text.bracketed (c.domains.map Text.quoted)}, " ++
    s!"common_types={c.common.length})"

end CompareResult

/-- The share of common elements in all elements of two sets, rounded to three places; zero if both
sets are empty. -/
def jaccard (s t : PageSet) : Float :=
  let all := (s.union t).size
  if all = 0 then 0.0
  else ((s.inter t).size.toFloat / all.toFloat * 1000.0).round / 1000.0

abbrev Listing := String × PageSet

namespace Listing

/-- The page types that every site has; none if there are no sites. -/
def common : List Listing → PageSet
  | [] => .empty
  | first :: rest => rest.foldl (fun types site => types.inter site.2) first.2

/-- The page types of all sites but the one at an index. -/
def others (sites : List Listing) (index : Nat) : PageSet :=
  .ofList ((sites.eraseIdx index).flatMap fun site => site.2.toList)

/-- The row of one site in the table of similarities; a site is entirely similar to itself. -/
def row (sites : List Listing) (index : Nat) (types : PageSet) : Table String Float :=
  .ofList (sites.zipIdx.map fun (site, i) =>
    (site.1, if i = index then 1.0 else jaccard types site.2))

def compare (sites : List Listing) : CompareResult where
  domains := sites.map Prod.fst
  common := (common sites).toList
  unique := .ofList (sites.zipIdx.map fun (site, i) =>
    (site.1, (site.2.diff (others sites i)).toList))
  similarities := .ofList (sites.zipIdx.map fun (site, i) => (site.1, row sites i site.2))

end Listing

end SiteAtlas
