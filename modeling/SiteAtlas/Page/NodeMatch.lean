import SiteAtlas.Page.Features
import SiteAtlas.Page.PageType

/-!
Nodes of a mapped site as queries find them.
-/
namespace SiteAtlas

structure NodeMatch where
  /-- stable within one map only -/
  index : UInt32
  url : String
  pageType : UInt8
  confidence : Float
  features : Features
  /-- how close the node is to the goal of a query for the nearest ones -/
  similarity : Option Float
  deriving Inhabited

namespace NodeMatch

def shape : Shape NodeMatch where
  title := "NodeMatch"
  blank := ⟨0, "", 0, 0.0, .empty, none⟩
  fields := [
    ⟨"index", [], .defaulted, Codec.word32, index, fun v r => { r with index := v }⟩,
    ⟨"url", [], .defaulted, Codec.text, url, fun v r => { r with url := v }⟩,
    ⟨"page_type", [], .defaulted, Codec.word8, pageType, fun v r => { r with pageType := v }⟩,
    ⟨"confidence", [], .defaulted, Codec.double, confidence,
      fun v r => { r with confidence := v }⟩,
    ⟨"features", [], .defaulted, Features.codec, features, fun v r => { r with features := v }⟩,
    ⟨"similarity", [], .defaulted, Codec.optional Codec.double, similarity,
      fun v r => { r with similarity := v }⟩]

def shownLength : Nat := 50

def shownUrl (url : String) : String :=
  if shownLength < url.length then String.ofList (url.toList.take shownLength) ++ "..." else url

def display (m : NodeMatch) : String :=
  s!"NodeMatch(index={m.index}, url={Text.quoted (shownUrl m.url)}, " ++
    s!"type={PageType.name m.pageType}, confidence={Decimal.fixed 2 m.confidence}" ++
    (match m.similarity with
      | some similarity => s!", similarity={Decimal.fixed 3 similarity})"
      | none => ")")

end NodeMatch

structure QueryResult where
  found : List NodeMatch
  deriving Inhabited

def QueryResult.shape : Shape QueryResult where
  title := "QueryResult"
  blank := ⟨[]⟩
  fields := [
    ⟨"matches", [], .defaulted, Codec.list NodeMatch.shape.codec, QueryResult.found,
      fun v r => { r with found := v }⟩]

end SiteAtlas
