import DownloadCache.Client
import DownloadCache.Proofs.Text.Utf8
import DownloadCache.Server

/-!
# Lines of octets

Cutting a stream at its line feeds gives one piece more than there are line feeds.  The server
leaves out the last piece if nothing is in it (`splitOn_eq_cutLines`), a client takes the first
piece with its line feed (`firstLine_append`).
-/

namespace DownloadCache

set_option autoImplicit false

/-! ## Cutting -/

/-- A first line that ends with a line feed is cut off. -/
theorem cutLines_append {body : List UInt8} (single : 0x0a ∉ body) (rest : List UInt8) :
    cutLines (body ++ 0x0a :: rest) = body :: cutLines rest := by
  induction body with
  | nil => rw [List.nil_append, cutLines, if_pos rfl]
  | cons octet body ih =>
      rw [List.mem_cons, not_or] at single
      rw [List.cons_append, cutLines, if_neg (Ne.symm single.1), ih single.2]

/-- The first line with its line feed is what a client reads. -/
theorem Client.firstLine_append {body : List UInt8} (single : 0x0a ∉ body) (rest : List UInt8) :
    Client.firstLine (body ++ 0x0a :: rest) = body ++ [0x0a] := by
  induction body with
  | nil => rw [List.nil_append, Client.firstLine, if_pos rfl, List.nil_append]
  | cons octet body ih =>
      rw [List.mem_cons, not_or] at single
      rw [List.cons_append, Client.firstLine, if_neg (Ne.symm single.1), ih single.2,
        List.cons_append]

/-- The first piece ends at the first line feed. -/
theorem splitOn_append {body : List UInt8} (single : 0x0a ∉ body) (rest : List UInt8) :
    (body ++ 0x0a :: rest).splitOn 0x0a = body :: rest.splitOn 0x0a := by
  have whole : body.splitOn 0x0a = [body] :=
    List.splitOnP_eq_singleton fun octet member => beq_eq_false_iff_ne.mpr
      fun feed => single (feed ▸ member)
  have cut : (body ++ 0x0a :: rest).splitOn 0x0a = body.splitOn 0x0a ++ rest.splitOn 0x0a :=
    List.splitOnP_append_cons body rest (beq_self_eq_true _)
  rw [cut, whole, List.singleton_append]

/-- **The pieces between line feeds are the lines,** but for a last piece with nothing in it. -/
theorem splitOn_eq_cutLines (octets : List UInt8) :
    octets.splitOn 0x0a = cutLines octets ∨ octets.splitOn 0x0a = cutLines octets ++ [[]] := by
  induction octets with
  | nil => exact .inr rfl
  | cons octet rest ih =>
      rw [List.splitOn, List.splitOnP_cons_eq_if_modifyHead, cutLines]
      by_cases feed : octet = 0x0a
      · rw [if_pos feed, if_pos (beq_iff_eq.mpr feed)]
        rcases ih with same | more
        · exact .inl (congrArg _ same)
        · exact .inr (congrArg _ more)
      · rw [if_neg feed, if_neg (by simpa using feed)]
        change (rest.splitOn 0x0a).modifyHead _ = _ ∨ (rest.splitOn 0x0a).modifyHead _ = _
        rcases ih with same | more
        · have some := List.splitOn_ne_nil (0x0a : UInt8) rest
          rw [same] at some ⊢
          cases cut : cutLines rest with
          | nil => exact absurd cut some
          | cons line lines => exact .inl rfl
        · rw [more]
          cases cutLines rest with
          | nil => exact .inl rfl
          | cons line lines => exact .inr rfl

end DownloadCache
