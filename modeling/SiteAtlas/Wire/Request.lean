import SiteAtlas.Wire.Method

/-!
Request envelopes: one line of JSON each, ended by a line end.
-/
namespace SiteAtlas

structure Request where
  /-- a token of this call only -/
  id : String
  method : Method
  params : Json
  deriving Inhabited

namespace Request

def shape : Shape Request where
  title := "Request"
  blank := ⟨"", .handshake, .null⟩
  fields := [
    ⟨"id", [], .required, Codec.text, Request.id, fun v r => { r with id := v }⟩,
    ⟨"method", [], .required, Method.codec, Request.method, fun v r => { r with method := v }⟩,
    ⟨"params", [], .defaulted, Codec.any, Request.params, fun v r => { r with params := v }⟩]

def line (r : Request) : List Char := (shape.encode r).chars ++ ['\n']

def bytes (r : Request) : Utf8.Bytes := Utf8.encode r.line

end Request

/-- The digits of `n` in base sixteen, the last `width` of them. -/
def hexField (width n : Nat) : List Char :=
  match width with
  | 0 => []
  | width + 1 => hexField width (n / 16) ++ [Json.hexDigit (n % 16)]

/-- A token in the form of a random identifier of version four, made from a number. -/
def requestToken (seed : Nat) : String :=
  String.ofList (hexField 8 (seed >>> 90) ++ '-' :: hexField 4 (seed >>> 74) ++
    '-' :: '4' :: hexField 3 (seed >>> 62) ++ '-' :: hexField 1 (8 + (seed >>> 60) % 4) ++
    hexField 3 (seed >>> 48) ++ '-' :: hexField 12 seed)

/-- Lower-case hexadecimal in groups of 8, 4, 4, 4 and 12 digits, with the marks of version four. -/
def isRequestToken (token : String) : Bool :=
  let cs := token.toList
  let dash (i : Nat) : Bool := i == 8 || i == 13 || i == 18 || i == 23
  let hex (c : Char) : Bool := ('0' ≤ c && c ≤ '9') || ('a' ≤ c && c ≤ 'f')
  cs.length == 36 && cs.zipIdx.all fun (c, i) =>
    if dash i then c == '-'
    else if i = 14 then c == '4'
    else if i = 19 then c == '8' || c == '9' || c == 'a' || c == 'b'
    else hex c

end SiteAtlas
