import ObjectSql.Proofs.Expr.Template
import ObjectSql.Proofs.Statement.Parameters
import ObjectSql.Proofs.Text.Digits

/-!
# Slots of templates

A template is read from its front: text up to an opening brace, what stands in the braces, and the rest.
Braces around the index of an argument are a slot, for which the argument is written. All other text is kept,
other braces included, so filling is a function of any text; and a template of text and slots is filled piece
by piece.
-/
namespace ObjectSql.Template

open Text SqlText

variable {args : List SqlText} {before inner after cs : List Char} {t : SqlText} {i : Nat}

/-! ## Pairs of braces -/

/-- Arguments are fewer than the numbers of 64 bits, so an index of one of them is read as such. -/
theorem slot_of_indexes (hargs : args.length ≤ 2 ^ 64) (h : Indexes inner i) (hi : i < args.length) :
    slot args inner = args[i] := by
  rw [slot, readIndex_eq_some_iff.mpr ⟨h, hi.trans_le hargs⟩, Option.bind_some,
    List.getElem?_eq_getElem hi]

theorem slot_of_not_indexes (h : ∀ i, Indexes inner i → args.length ≤ i) :
    slot args inner = raw (String.ofList ('\x7b' :: (inner ++ ['\x7d']))) := by
  have hnone : (readIndex inner).bind (args[·]?) = none := by
    cases hindex : readIndex inner with
    | none => rfl
    | some i => exact List.getElem?_eq_none (h i (readIndex_eq_some_iff.mp hindex).1)
  have htext : "\x7b" ++ String.ofList inner ++ "\x7d" = String.ofList ('\x7b' :: (inner ++ ['\x7d'])) := by
    simp [String.ext_iff]
  rw [slot, hnone, htext]

/-- An opening brace that no brace closes is kept with all that follows it. -/
theorem fillFrom_unclosed (h : '\x7d' ∉ after) :
    fillFrom args none ('\x7b' :: after) = raw (String.ofList ('\x7b' :: after)) := by
  have hinner (inner : List Char) : fillFrom args (some inner) after =
      raw ("\x7b" ++ String.ofList (inner ++ after)) := by
    induction after generalizing inner with
    | nil => rw [fillFrom, List.append_nil]
    | cons c cs ih =>
      rw [List.mem_cons, not_or] at h
      rw [fillFrom, if_neg (Ne.symm h.1), ih h.2, List.append_assoc, List.singleton_append]
  rw [fillFrom, if_pos rfl, hinner]
  simp [raw]

/-! ## Any text -/

/-- What a text becomes, by the braces at its front: an opening brace and the first closing brace behind it
enclose the index of an argument or other text. -/
inductive Fills (args : List SqlText) : List Char → SqlText → Prop
  | plain {cs : List Char} (h : '\x7b' ∉ cs) : Fills args cs (raw (String.ofList cs))
  | unclosed {before after : List Char} (hbefore : '\x7b' ∉ before) (hafter : '\x7d' ∉ after) :
    Fills args (before ++ '\x7b' :: after) (raw (String.ofList (before ++ '\x7b' :: after)))
  | filled {before inner cs : List Char} {i : Nat} {t : SqlText} (hbefore : '\x7b' ∉ before)
    (hinner : '\x7d' ∉ inner) (hindex : Indexes inner i) (hi : i < args.length) (h : Fills args cs t) :
    Fills args (before ++ '\x7b' :: (inner ++ '\x7d' :: cs)) (raw (String.ofList before) ++ args[i] ++ t)
  | kept {before inner cs : List Char} {t : SqlText} (hbefore : '\x7b' ∉ before)
    (hinner : '\x7d' ∉ inner) (hindex : ∀ i, Indexes inner i → args.length ≤ i) (h : Fills args cs t) :
    Fills args (before ++ '\x7b' :: (inner ++ '\x7d' :: cs))
      (raw (String.ofList (before ++ '\x7b' :: (inner ++ ['\x7d']))) ++ t)

theorem Fills.fillFrom_eq (hargs : args.length ≤ 2 ^ 64) (h : Fills args cs t) :
    fillFrom args none cs = t := by
  induction h with
  | plain h => simpa [fillFrom] using fillFrom_text args h []
  | unclosed hbefore hafter =>
    rw [fillFrom_text args hbefore, fillFrom_unclosed hafter, ← raw_ofList_append]
  | filled hbefore hinner hindex hi _ ih =>
    rw [fillFrom_text args hbefore, fillFrom_slot args hinner, slot_of_indexes hargs hindex hi, ih,
      append_assoc]
  | kept hbefore hinner hindex _ ih =>
    rw [fillFrom_text args hbefore, fillFrom_slot args hinner, slot_of_not_indexes hindex, ih,
      ← append_assoc, ← raw_ofList_append]

/-- Every text is filled: behind a pair of braces there is less text than before it. -/
theorem exists_fills (args : List SqlText) (cs : List Char) : ∃ t, Fills args cs t := by
  by_cases hopen : '\x7b' ∈ cs
  · obtain ⟨before, after, hcs, hbefore⟩ := List.eq_append_cons_of_mem hopen
    by_cases hclose : '\x7d' ∈ after
    · obtain ⟨inner, rest, rfl, hinner⟩ := List.eq_append_cons_of_mem hclose
      have hshorter : rest.length < cs.length := by
        simp only [hcs, List.length_append, List.length_cons]
        omega
      obtain ⟨t, ht⟩ := exists_fills args rest
      rw [hcs]
      by_cases hindex : ∃ i, Indexes inner i ∧ i < args.length
      · obtain ⟨i, hindex, hi⟩ := hindex
        exact ⟨_, .filled hbefore hinner hindex hi ht⟩
      · simp only [not_exists, not_and, Nat.not_lt] at hindex
        exact ⟨_, .kept hbefore hinner hindex ht⟩
    · rw [hcs]
      exact ⟨_, .unclosed hbefore hclose⟩
  · exact ⟨_, .plain hopen⟩
termination_by cs.length

theorem fill_eq_iff (hargs : args.length ≤ 2 ^ 64) (text : String) (t : SqlText) :
    fill text args = t ↔ Fills args text.toList t := by
  obtain ⟨t', ht'⟩ := exists_fills args text.toList
  constructor
  · rintro rfl
    rw [fill, ht'.fillFrom_eq hargs]
    exact ht'
  · exact Fills.fillFrom_eq hargs

/-! ## Text and slots in turns -/

/-- A piece of a template for `n` arguments: text without an opening brace, or the number of an argument in
braces. -/
inductive Piece (n : Nat) where
  | text (s : String) (h : '\x7b' ∉ s.toList)
  | slot (digits : List Char) (hrun : IsRun digits) (h : digitsValue digits < n)

namespace Piece

variable {n : Nat}

def spelled : Piece n → String
  | text s _ => s
  | slot digits _ _ => "\x7b" ++ String.ofList digits ++ "\x7d"

def written (argument : Fin n → SqlText) : Piece n → SqlText
  | text s _ => raw s
  | slot digits _ h => argument ⟨digitsValue digits, h⟩

end Piece

variable {n : Nat} {argument : Fin n → SqlText}

/-- A piece at the front is filled, and then what follows it. -/
theorem fillFrom_piece (hn : n ≤ 2 ^ 64) (hargs : ∀ i : Fin n, args[i.val]? = some (argument i))
    (piece : Piece n) (rest : List Char) :
    fillFrom args none (piece.spelled.toList ++ rest) =
      piece.written argument ++ fillFrom args none rest := by
  cases piece with
  | text s h =>
    rw [Piece.spelled, fillFrom_text args h, String.ofList_toList]
    rfl
  | slot digits hrun h =>
    have hspelled : (Piece.slot digits hrun h).spelled.toList = '\x7b' :: (digits ++ ['\x7d']) := by
      simp [Piece.spelled]
    have hindex : readIndex digits = some (digitsValue digits) :=
      readIndex_eq_some_iff.mpr ⟨⟨digits, .inl rfl, hrun, rfl⟩, h.trans_le hn⟩
    have hslot : slot args digits = argument ⟨digitsValue digits, h⟩ := by
      rw [slot, hindex, Option.bind_some, hargs ⟨digitsValue digits, h⟩]
    rw [hspelled, List.cons_append, List.append_assoc, List.singleton_append,
      fillFrom_slot args (hrun.not_mem (by decide)), hslot]
    rfl

theorem fill_pieces (hn : n ≤ 2 ^ 64) (hargs : ∀ i : Fin n, args[i.val]? = some (argument i))
    (pieces : List (Piece n)) :
    fill (String.join (pieces.map Piece.spelled)) args =
      concat (pieces.map fun piece => piece.written argument) := by
  rw [fill, String.toList_join, List.flatMap_map]
  induction pieces with
  | nil => rfl
  | cons piece pieces ih => rw [List.flatMap_cons, fillFrom_piece hn hargs, ih]; rfl

end ObjectSql.Template

namespace ObjectSql

open Template

theorem exprsToSql_eq_map (p : Profile) (es : List Expr) : exprsToSql p es = es.map (Expr.toSql p) := by
  induction es with
  | nil => rfl
  | cons e es ih => rw [exprsToSql, ih, List.map_cons]

/-- A template of text and slots is written piece by piece, with the text and the parameters of an argument in
each of its slots. In any template the arguments are written for their slots, and all else is kept. No list of
arguments is too long for an index of 64 bits. -/
theorem Expr.template_fills (p : Profile) (args : List Expr) (hargs : args.length ≤ 2 ^ 64)
    (category : Category) (logicalType : String) :
    (∀ pieces : List (Piece args.length),
      let written := pieces.map fun piece => piece.written fun i => args[i].toSql p
      let filled :=
        (template (String.join (pieces.map Piece.spelled)) args category logicalType).toSql p
      filled.sql = String.join (written.map SqlText.sql) ∧
        filled.params = written.flatMap SqlText.params) ∧
    ∀ text t, (template text args category logicalType).toSql p = t ↔
      Fills (args.map (Expr.toSql p)) text.toList t := by
  have htoSql (text : String) : (template text args category logicalType).toSql p =
      fill text (args.map (Expr.toSql p)) := by
    rw [← exprsToSql_eq_map]
    rfl
  refine ⟨fun pieces => ?_, fun text t => ?_⟩
  · have hget (i : Fin args.length) : (args.map (Expr.toSql p))[i.val]? = some (args[i].toSql p) := by
      simp
    have hfilled := (htoSql _).trans (fill_pieces hargs hget pieces)
    simp only [hfilled]
    exact ⟨SqlText.concat_sql _, (SqlText.concat_params _).trans (List.flatMap_def ..).symm⟩
  · rw [htoSql]
    exact fill_eq_iff (by rwa [List.length_map]) text t

/-- The place of the first member in the text of the second one. -/
def locateArguments : List Expr :=
  [.parameter (.member 0) 0 "string", .parameter (.member 1) 0 "string"]

/-- Slots in another order than that of the arguments, one with a zero in front. -/
def locatePieces : List (Piece locateArguments.length) :=
  [.text "LOCATE(" (by decide),
    .slot ['1'] ⟨by decide, List.all_eq_true.mp (by decide)⟩ (by decide),
    .text ", " (by decide),
    .slot ['0', '0'] ⟨by decide, List.all_eq_true.mp (by decide)⟩ (by decide),
    .text ")" (by decide)]

theorem Expr.template_fills_locate :
    locateArguments.length ≤ 2 ^ 64 ∧
      String.join (locatePieces.map Piece.spelled) = "LOCATE(\x7b1\x7d, \x7b00\x7d)" ∧
      ((template (String.join (locatePieces.map Piece.spelled)) locateArguments .numeric "i32").toSql
          (Profile.ofVendor .postgresql ⟨15, 0, 0⟩)).params =
        [.deferred (.member 1) 0, .deferred (.member 0) 0] ∧
      Fills (locateArguments.map (toSql (Profile.ofVendor .postgresql ⟨15, 0, 0⟩)))
        "\x7b\x7b0\x7d \x7b2\x7d \x7b+1\x7d\x7d\x7b".toList
        ⟨"\x7b\x7b0\x7d \x7b2\x7d ?\x7d\x7b", [.deferred (.member 1) 0]⟩ := by
  have hcount : locateArguments.length ≤ 2 ^ 64 := by decide
  obtain ⟨hpieces, hfills⟩ :=
    template_fills (Profile.ofVendor .postgresql ⟨15, 0, 0⟩) locateArguments hcount .numeric "i32"
  exact ⟨hcount, by decide, (hpieces locatePieces).2, (hfills _ _).mp (by decide)⟩

end ObjectSql
