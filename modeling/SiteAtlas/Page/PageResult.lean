import SiteAtlas.Page.Features
import SiteAtlas.Page.PageType

/-!
Single pages that are looked at without mapping their site.
-/
namespace SiteAtlas

/-- A page as the service sends it; the address asked for is not part of it. -/
structure PerceiveResult where
  finalUrl : Option String
  pageType : UInt8
  confidence : Float
  features : Features
  content : Option String
  deriving Inhabited

namespace PerceiveResult

def shape : Shape PerceiveResult where
  title := "PerceiveResult"
  blank := ⟨none, 0, 0.0, .empty, none⟩
  fields := [
    ⟨"final_url", [], .defaulted, Codec.optional Codec.text, finalUrl,
      fun v r => { r with finalUrl := v }⟩,
    ⟨"page_type", [], .defaulted, Codec.word8, pageType, fun v r => { r with pageType := v }⟩,
    ⟨"confidence", [], .defaulted, Codec.double, confidence,
      fun v r => { r with confidence := v }⟩,
    ⟨"features", [], .defaulted, Features.codec, features, fun v r => { r with features := v }⟩,
    ⟨"content", [], .defaulted, Codec.optional Codec.text, content,
      fun v r => { r with content := v }⟩]

end PerceiveResult

structure PageResult where
  url : String
  finalUrl : String
  pageType : UInt8
  confidence : Float
  features : Features
  content : Option String
  deriving Inhabited

namespace PageResult

def shape : Shape PageResult where
  title := "PageResult"
  blank := ⟨"", "", 0, 0.0, .empty, none⟩
  fields := [
    ⟨"url", [], .required, Codec.text, url, fun v r => { r with url := v }⟩,
    ⟨"final_url", [], .required, Codec.text, finalUrl, fun v r => { r with finalUrl := v }⟩,
    ⟨"page_type", [], .required, Codec.word8, pageType, fun v r => { r with pageType := v }⟩,
    ⟨"confidence", [], .required, Codec.double, confidence,
      fun v r => { r with confidence := v }⟩,
    ⟨"features", [], .required, Features.codec, features, fun v r => { r with features := v }⟩,
    ⟨"content", [], .nullable, Codec.optional Codec.text, content,
      fun v r => { r with content := v }⟩]

/-- The page at an address. Unless the service says otherwise, it was found there. -/
def ofPerceived (url : String) (p : PerceiveResult) : PageResult :=
  ⟨url, p.finalUrl.getD url, p.pageType, p.confidence, p.features, p.content⟩

def display (p : PageResult) : String :=
  s!"PageResult(url={Text.quoted p.url}, type={PageType.name p.pageType}, " ++
    s!"confidence={Decimal.fixed 2 p.confidence})"

end PageResult

end SiteAtlas
