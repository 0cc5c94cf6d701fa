import SiteAtlas.Text.Quoted

/-!
Names of page types. A page type is a byte; the first few have a name.
-/
namespace SiteAtlas.PageType

/-- The names in the order of the codes. -/
def names : List String :=
  ["unknown", "home", "search_results", "product_listing", "product_detail", "article",
    "review_list", "media_page", "login", "cart", "checkout", "account", "documentation",
    "form_page", "about_page", "contact_page", "faq", "pricing_page"]

/-- The name of a page type, made from its code if it has none. -/
def name (code : UInt8) : String :=
  (names[code.toNat]?).getD ("type_" ++ Text.hexByte code)

end SiteAtlas.PageType
