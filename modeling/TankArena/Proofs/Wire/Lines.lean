import TankArena.Proofs.Framer
import TankArena.Proofs.Json.Quoted
import TankArena.Proofs.Text.Utf8

/-!
# Written lines survive the stream

Texts without control characters, each with a line feed at its end, are put on a stream as bytes.
However the stream is cut into reads, a framer hands out exactly these texts and is as fresh after
them as it was before (`pushAll_texts`).

Four things have to fit for that, one from each side: no text has the byte of a line feed within it
(`Utf8.exists_of_mem_encode`), none ends in a carriage return that would be stripped, none is empty
and would be skipped, and none is longer than the framer keeps.
-/

namespace TankArena

/-! ## 1. Lists of lines -/

/-- **Lines are found again** where each has its mark at the end and none within. -/
theorem splitOn_terminated {α : Type} [BEq α] [LawfulBEq α] {mark : α} {ls : List (List α)}
    (h : ∀ l ∈ ls, mark ∉ l) :
    (ls.flatMap fun l => l ++ [mark]).splitOn mark = ls ++ [[]] := by
  induction ls with
  | nil => exact List.splitOn_nil mark
  | cons l ls ih =>
    rw [List.flatMap_cons, List.append_assoc, List.singleton_append,
      List.splitOn_append_cons_self_of_not_mem (h l List.mem_cons_self),
      ih fun l' hl' => h l' (List.mem_cons_of_mem l hl'), List.cons_append]

namespace Framer

/-- A stream that ends with a line feed leaves a framer as it was, if no line of it is too long. -/
theorem after_of_terminated {limit : Nat} {reads : List (List UInt8)}
    (h : unfinished reads.flatten = []) : after limit reads = fresh limit := by
  have hkept : isLost limit reads (lines reads.flatten).length = false := by
    rw [Bool.eq_false_iff, Ne, isLost_iff]
    rintro ⟨received, ⟨rest, rfl⟩, hcount, hlong⟩
    rw [List.flatten_append] at h hcount
    have hcut := cut_eq rest.flatten
    cases hrest : lines rest.flatten with
    | nil =>
      rw [hrest] at hcut
      rw [(append_of_cut_nil hcut).2] at h
      rw [(List.append_eq_nil_iff.mp h).1] at hlong
      exact Nat.not_lt_zero limit hlong
    | cons line more =>
      rw [hrest] at hcut
      rw [(append_of_cut_cons hcut).1, List.length_append, List.length_cons] at hcount
      omega
  unfold after
  rw [hkept, h]
  rfl

/-! ## 2. Texts as frames -/

open Json (Printable)

theorem not_mem_encode {s : String} (hs : Printable s.toList) {b : UInt8} (hb : b.toNat < 0x20) :
    b ∉ Utf8.encode s := by
  intro hmem
  obtain ⟨c, hc, hval⟩ := Utf8.exists_of_mem_encode hmem (by omega)
  have hchar := hs c hc
  omega

/-- A text without control characters is the frame of its bytes. -/
theorem frame?_encode {s : String} (hs : Printable s.toList) (hne : s ≠ "") :
    frame? (Utf8.encode s) = some s := by
  have hreturn : dropReturn (Utf8.encode s) = Utf8.encode s := by
    unfold dropReturn
    rw [if_neg]
    intro hlast
    exact not_mem_encode hs (by decide) (List.mem_of_getLast? hlast)
  have hsome : (Utf8.encode s).isEmpty = false := by
    rw [List.isEmpty_eq_false_iff]
    intro hnil
    have hdecode := Utf8.decodeLossy_encode s
    rw [hnil] at hdecode
    exact hne hdecode.symm
  unfold frame?
  dsimp only
  rw [hreturn, hsome, Utf8.decodeLossy_encode]
  rfl

/-- **Written lines survive the stream.** -/
theorem pushAll_texts {limit : Nat} {texts : List String}
    (hprintable : ∀ s ∈ texts, Printable s.toList) (hne : ∀ s ∈ texts, s ≠ "")
    (hshort : ∀ s ∈ texts, (Utf8.encode s).length ≤ limit) {reads : List (List UInt8)}
    (hreads : reads.flatten = texts.flatMap fun s => Utf8.encode s ++ [lineFeed]) :
    (fresh limit).pushAll reads = (fresh limit, texts) := by
  have hstream : reads.flatten
      = (texts.map Utf8.encode).flatMap fun line => line ++ [lineFeed] := by
    rw [hreads, List.flatMap_map]
  have hnone : ∀ line ∈ texts.map Utf8.encode, lineFeed ∉ line := by
    intro line hline
    obtain ⟨s, hs, rfl⟩ := List.mem_map.mp hline
    exact not_mem_encode (hprintable s hs) (by decide)
  obtain ⟨hlines, hrest⟩ := lines_of_splitOn (texts.map Utf8.encode)
    (hstream ▸ splitOn_terminated hnone)
  have hkept : kept limit reads = texts.map Utf8.encode := by
    rw [kept_of_short, hlines]
    rw [hlines]
    intro line hline
    obtain ⟨s, hs, rfl⟩ := List.mem_map.mp hline
    exact hshort s hs
  have hframes : (texts.map Utf8.encode).filterMap frame? = texts := by
    calc (texts.map Utf8.encode).filterMap frame?
        = texts.filterMap (frame? ∘ Utf8.encode) := List.filterMap_map
      _ = texts.filterMap some :=
          List.filterMap_congr fun s hs => frame?_encode (hprintable s hs) (hne s hs)
      _ = texts := List.filterMap_some
  rw [pushAll_eq, after_of_terminated hrest, hkept, hframes]

end Framer

end TankArena
