import ObjectSql.Proofs.Expr.Phrase

/-!
# Templates as phrases with slots

A template is a text, and what is written in its slots is not looked at. The shape of a template is the
phrase that it means, with slots in place of the operands. Filling the text gives the text of the shape with
the phrases of the arguments in its slots.
-/
namespace ObjectSql.Template

open SqlText Phrase

/-! ## Filling text piece by piece -/

/-- Text without an opening brace is kept. -/
theorem fillFrom_text (args : List SqlText) {cs : List Char} (h : '\x7b' ∉ cs) (rest : List Char) :
    fillFrom args none (cs ++ rest) = raw (String.ofList cs) ++ fillFrom args none rest := by
  induction cs with
  | nil => exact (empty_append _).symm
  | cons c cs ih =>
    rw [List.mem_cons, not_or] at h
    have hcons : String.singleton c ++ String.ofList cs = String.ofList (c :: cs) := by
      simp
    rw [List.cons_append, fillFrom, if_neg (Ne.symm h.1), ih h.2, ← append_assoc, ← raw_append_raw, hcons]

/-- A pair of braces is a slot if there is no closing brace in it. -/
theorem fillFrom_slot (args : List SqlText) {cs : List Char} (h : '\x7d' ∉ cs) (rest : List Char) :
    fillFrom args none ('\x7b' :: (cs ++ '\x7d' :: rest)) = slot args cs ++ fillFrom args none rest := by
  have hinner : ∀ inner, fillFrom args (some inner) (cs ++ '\x7d' :: rest) =
      slot args (inner ++ cs) ++ fillFrom args none rest := by
    induction cs with
    | nil => intro inner; simp [fillFrom]
    | cons c cs ih =>
      rw [List.mem_cons, not_or] at h
      intro inner
      rw [List.cons_append, fillFrom, if_neg (Ne.symm h.1), ih h.2, List.append_assoc]
      rfl
  rw [fillFrom, if_pos rfl, hinner]
  rfl

/-! ## Shapes -/

/-- A phrase with slots for at most three arguments. -/
inductive Shape where
  | slot (i : Fin 3)
  | one
  | parens (inner : Shape)
  | call (f : String) (arg : Shape)
  | binary (left : Shape) (o : Operator) (right : Shape)

namespace Shape

def text : Shape → String
  | slot i => "\x7b" ++ toString i.val ++ "\x7d"
  | one => "1"
  | parens x => "(" ++ x.text ++ ")"
  | call f x => f ++ "(" ++ x.text ++ ")"
  | binary l o r => l.text ++ (o.gap ++ o.sql ++ " ") ++ r.text

def number : Node := .literal (.int 1)

def phrase (args : List Phrase) : Shape → Phrase
  | slot i => args.getD i (.word none .null)
  | one => .word none number
  | parens x => .parens (x.phrase args)
  | call f x => .call f (x.phrase args)
  | binary l o r => .binary (l.phrase args) o (r.phrase args)

def tree (args : List Tree) : Shape → Tree
  | slot i => args.getD i (.word none .null)
  | one => .word none number
  | parens x => x.tree args
  | call f x => .call f (x.tree args)
  | binary l o r => .binary (l.tree args) o (r.tree args)

/-- Whether the slots are those of the first arguments, and no other text has a brace. -/
def fillable (n : Nat) : Shape → Bool
  | slot i => i < n
  | one => true
  | parens x => x.fillable n
  | call f x => '\x7b' ∉ f.toList && x.fillable n
  | binary l o r => l.fillable n && '\x7b' ∉ (o.gap ++ o.sql ++ " ").toList && r.fillable n

theorem phrase_tree (args : List Phrase) (x : Shape) :
    (x.phrase args).tree = x.tree (args.map Phrase.tree) := by
  induction x with
  | slot i =>
    rw [phrase, tree, List.getD_eq_getElem?_getD, List.getD_eq_getElem?_getD, List.getElem?_map]
    cases args[i.val]? <;> rfl
  | one => rfl
  | parens x ih => exact ih
  | call f x ih => exact congrArg (Tree.call f) ih
  | binary l o r ihl ihr => rw [phrase, tree, Phrase.tree, ihl, ihr]

theorem readIndex_slot (i : Fin 3) : '\x7d' ∉ (toString i.val).toList ∧
    Text.readIndex (toString i.val).toList = some i.val := by
  revert i
  decide

theorem fillFrom_shape {args : List Phrase} (p : Profile) {x : Shape} (h : x.fillable args.length)
    (rest : List Char) :
    fillFrom (args.map (Phrase.text p)) none (x.text.toList ++ rest) =
      (x.phrase args).text p ++ fillFrom (args.map (Phrase.text p)) none rest := by
  induction x generalizing rest with
  | slot i =>
    have hi : i.val < args.length := by simpa [fillable] using h
    have htext : (slot i).text.toList = '\x7b' :: ((toString i.val).toList ++ ['\x7d']) := by
      simp [text]
    obtain ⟨hbrace, hindex⟩ := readIndex_slot i
    have harg : Template.slot (args.map (Phrase.text p)) (toString i.val).toList = args[i.val].text p := by
      rw [Template.slot, hindex, Option.bind_some, List.getElem?_map, List.getElem?_eq_getElem hi]
      rfl
    rw [htext, List.cons_append, List.append_assoc, List.singleton_append, fillFrom_slot _ hbrace, harg,
      phrase, List.getD_eq_getElem?_getD, List.getElem?_eq_getElem hi, Option.getD_some]
  | one =>
    rw [text, fillFrom_text _ (by decide)]
    rfl
  | parens x ih =>
    rw [text, String.toList_append, String.toList_append, List.append_assoc, List.append_assoc,
      fillFrom_text _ (by decide), ih h, fillFrom_text _ (by decide), phrase, Phrase.text]
    simp [SqlText.parens, append_assoc]
  | call f x ih =>
    simp only [fillable, Bool.and_eq_true, decide_eq_true_eq] at h
    simp only [text, String.toList_append, List.append_assoc]
    rw [fillFrom_text _ h.1, fillFrom_text _ (by decide), ih h.2, fillFrom_text _ (by decide), phrase,
      Phrase.text]
    simp [SqlText.parens, append_assoc]
  | binary l o r ihl ihr =>
    simp only [fillable, Bool.and_eq_true, decide_eq_true_eq] at h
    rw [text, String.toList_append, String.toList_append, List.append_assoc, List.append_assoc, ihl h.1.1,
      fillFrom_text _ h.1.2, ihr h.2, phrase, Phrase.text, append_assoc, append_assoc, String.ofList_toList]

/-- Filling a template gives the text of its phrase. -/
theorem fill_text {args : List Phrase} (p : Profile) {x : Shape} (h : x.fillable args.length) :
    fill x.text (args.map (Phrase.text p)) = (x.phrase args).text p := by
  have hfill := fillFrom_shape p h []
  simpa [fill, fillFrom] using hfill

end Shape

end ObjectSql.Template
