import Vynor.Lib.JsonText
import Vynor.Lib.Utf8

/-!
# Cursors of pages

`encodeCursor` writes a JSON value as the base64 of its text, and `decodeCursor`
reads such a text.  What `encodeCursor` writes is read back
(`decodeCursor_encodeCursor`).
-/

namespace Vynor

open Lib (Bytes Json)

/-- `encodeCursor`. -/
def encodeCursor (payload : Json) : String :=
  Bytes.toBase64Url (Lib.Utf8.encode (Json.stringify payload))

/-- `decodeCursor`.  Both null and a cursor that cannot be read are null. -/
def decodeCursor (cursor : String) : Json :=
  (Json.parse (Lib.Utf8.decode (Bytes.ofBase64 cursor))).getD .null

example : encodeCursor (.object [("id", .string "café")]) = "eyJpZCI6ImNhZsOpIn0" := by
  decide

/-- A cursor is read back. -/
theorem decodeCursor_encodeCursor {payload : Json} (h : Json.isSound payload = true) :
    decodeCursor (encodeCursor payload) = payload := by
  rw [decodeCursor, encodeCursor, Bytes.ofBase64_toBase64Url, Lib.Utf8.decode_encode,
    Json.parse_stringify h, Option.getD_some]

/-- A cursor is not the empty text, unless it holds nothing. -/
theorem encodeCursor_ne_empty {payload : Json} (h : Json.isSound payload = true)
    (hnull : payload ≠ .null) : encodeCursor payload ≠ "" := by
  intro hempty
  have hread := decodeCursor_encodeCursor h
  rw [hempty] at hread
  exact hnull hread.symm

end Vynor
