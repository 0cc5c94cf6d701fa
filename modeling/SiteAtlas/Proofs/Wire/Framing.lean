import SiteAtlas.Channel.Frame
import SiteAtlas.Proofs.Json.Controls
import SiteAtlas.Proofs.Text.Utf8
import SiteAtlas.Wire.Request
import SiteAtlas.Wire.Response

/-!
# One line for each envelope

A reader cuts the bytes of a channel at line ends without reading them. The bytes of a request and
of a response hold a line end at their end and no other control, whatever their texts and keys hold.
-/
namespace SiteAtlas

open Utf8 (Bytes)
open Channel (lineEnd)

/-- One frame: a line end at the end, and no other byte below the blank. -/
structure Framed (bytes : Bytes) : Prop where
  ends : bytes.getLast? = some lineEnd
  once : bytes.count lineEnd = 1
  others : ∀ b ∈ bytes, b < 0x20 → b = lineEnd

/-- The bytes of printed text are at or above the blank, those of longer characters included. -/
theorem NoControls.le_of_mem_encode {cs : List Char} (h : NoControls cs) :
    ∀ b ∈ Utf8.encode cs, 0x20 ≤ b := by
  intro b hb
  rw [UInt8.le_iff_toNat_le]
  change 0x20 ≤ b.toNat
  rcases Utf8.mem_encode hb with ⟨c, hc, he⟩ | hhigh
  · rw [he]
    exact h c hc
  · omega

theorem lineEnd_not_mem {body : Bytes} (h : ∀ b ∈ body, 0x20 ≤ b) : lineEnd ∉ body := by
  intro hm
  exact absurd (h lineEnd hm) (by decide)

theorem framed_append_lineEnd {body : Bytes} (h : ∀ b ∈ body, 0x20 ≤ b) :
    Framed (body ++ [lineEnd]) where
  ends := List.getLast?_concat
  once := by
    rw [List.count_append, List.count_eq_zero_of_not_mem (lineEnd_not_mem h)]
    rfl
  others := by
    intro b hb hlow
    rcases List.mem_append.1 hb with hb | hb
    · exact absurd hlow (UInt8.not_lt.2 (h b hb))
    · exact List.mem_singleton.1 hb

/-- The bytes of a line are those of its text with a line end behind them. -/
theorem encode_append_newline (cs : List Char) :
    Utf8.encode (cs ++ ['\n']) = Utf8.encode cs ++ [lineEnd] := by
  rw [Utf8.encode_append]
  rfl

theorem framed_encode_chars (j : Json) : Framed (Utf8.encode (j.chars ++ ['\n'])) := by
  rw [encode_append_newline]
  exact framed_append_lineEnd (Json.noControls_chars j).le_of_mem_encode

/-- The bytes of a request are a line without line ends inside, and its end. -/
theorem Request.bytes_eq (r : Request) :
    r.bytes = r.bytes.dropLast ++ [lineEnd] ∧ lineEnd ∉ r.bytes.dropLast := by
  have hbytes : r.bytes = Utf8.encode (Request.shape.encode r).chars ++ [lineEnd] :=
    encode_append_newline _
  rw [hbytes, List.dropLast_concat]
  exact ⟨rfl, lineEnd_not_mem (Json.noControls_chars _).le_of_mem_encode⟩

/-- Every request and every response is one frame. -/
theorem framed_lines :
    (∀ r : Request, Framed r.bytes) ∧
      ∀ (r : Response) (id : String), Framed (Utf8.encode (r.line id)) :=
  ⟨fun r => framed_encode_chars (Request.shape.encode r),
    fun r id => framed_encode_chars (r.envelope id)⟩

end SiteAtlas
