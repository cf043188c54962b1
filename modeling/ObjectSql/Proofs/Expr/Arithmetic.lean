import ObjectSql.Expr.Method
import ObjectSql.Proofs.Expr.Operands
import ObjectSql.Proofs.Expr.Template

/-!
# Arithmetic in templates

The texts of positions, remainders and parts of texts have operators of their own, and their arguments are
written into them as they are. So an argument can be taken apart by the operators next to its slot, and a
position, which ends in a difference, by those around it. The text is read as the computation exactly if no
argument and no position stands at such a place.
-/
namespace ObjectSql

open Phrase Template

/-! ## The shapes of the templates -/

namespace Vendor

def modulo : Vendor → Shape
  | sqlite | sqlserver => .parens (.binary (.slot 0) .percent (.slot 1))
  | _ => .call "MOD" (.binary (.slot 0) (.separator ",") (.slot 1))

/-- The position of the second text in the first, from 1 on. -/
def position : Vendor → Shape
  | generic => .call "POSITION" (.binary (.slot 1) (.in false) (.slot 0))
  | postgresql => .call "STRPOS" (.binary (.slot 0) (.separator ",") (.slot 1))
  | sqlite | oracle => .call "INSTR" (.binary (.slot 0) (.separator ",") (.slot 1))
  | sqlserver => .call "CHARINDEX" (.binary (.slot 1) (.separator ",") (.slot 0))
  | mysql | derby | h2 | db2 => .call "LOCATE" (.binary (.slot 1) (.separator ",") (.slot 0))

def indexOf (v : Vendor) : Shape := .binary v.position (.of .sub) .one

/-- Where a part of a text starts, from 1 on. -/
def partStart : Shape := .binary (.slot 1) (.of .add) .one

def partLength : Shape := .binary (.slot 2) (.of .sub) (.slot 1)

def suffix : Vendor → Shape
  | sqlite | oracle | derby | db2 => .call "SUBSTR" (.binary (.slot 0) (.separator ",") partStart)
  | sqlserver =>
    .call "SUBSTRING" (.binary (.binary (.slot 0) (.separator ",") partStart) (.separator ",")
      (.call "LEN" (.slot 0)))
  | _ => .call "SUBSTRING" (.binary (.slot 0) (.separator "FROM") partStart)

def slice : Vendor → Shape
  | sqlite | oracle | derby | db2 =>
    .call "SUBSTR" (.binary (.binary (.slot 0) (.separator ",") partStart) (.separator ",") partLength)
  | sqlserver =>
    .call "SUBSTRING" (.binary (.binary (.slot 0) (.separator ",") partStart) (.separator ",") partLength)
  | _ =>
    .call "SUBSTRING" (.binary (.binary (.slot 0) (.separator "FROM") partStart) (.separator "FOR")
      partLength)

theorem find_modulo (v : Vendor) : Operation.find v "mod" = .ok (.modulo v.modulo.text) := by
  cases v <;> rfl

theorem find_indexOf (v : Vendor) :
    Method.find v (some .string) "indexOf" =
      .ok (.template "indexOf" [none, some v.indexOf.text] .numeric "i32") := by
  cases v <;> rfl

theorem find_substring (v : Vendor) :
    Method.find v (some .string) "substring" =
      .ok (.template "substring" [none, some v.suffix.text, some v.slice.text] .string "string") := by
  cases v <;> rfl

theorem fillable (v : Vendor) :
    v.modulo.fillable 2 ∧ v.indexOf.fillable 2 ∧ v.suffix.fillable 2 ∧ v.slice.fillable 3 := by
  cases v <;> decide

/-! ### Arguments that may stand in the slots -/

variable (v : Vendor) {t x y : Phrase}

theorem modulo_fits (hy : 0 < y.level) :
    (v.modulo.phrase [x, y]).Fits ↔ x.Fits ∧ y.Fits ∧
      (v = .sqlite ∨ v = .sqlserver →
        Operator.percent.level ≤ x.level ∧ Operator.percent.level < y.level) := by
  cases v with
  | sqlite | sqlserver =>
    show (binary x .percent y).Fits ↔ _
    rw [binary_fits rfl]
    simp
  | _ =>
    show (binary x (.separator ",") y).Fits ↔ _
    rw [separated_fits "," hy]
    simp

theorem indexOf_fits (t t' : Option TableRef) (n n' : Node) :
    (v.indexOf.phrase [.word t n, .word t' n']).Fits :=
  of_decide_eq_true (by cases v <;> rfl)

/-- Behind a separator, the start of a part is any number with one added. -/
theorem start_fits (hx : 5 ≤ x.level) (sep : String) :
    (binary t (.separator sep) (binary x (.of .add) (.word none Shape.number))).Fits ↔
      t.Fits ∧ x.Fits := by
  have hlevel : (Operator.of .add).level = 5 := rfl
  rw [separated_fits sep (by simp [hlevel]), binary_fits rfl, hlevel]
  simp [Fits, hx]

/-- Behind a separator, the start of a part is taken away from its end. -/
theorem length_fits (hy : 5 ≤ y.level) (sep : String) :
    (binary t (.separator sep) (binary y (.of .sub) x)).Fits ↔
      t.Fits ∧ y.Fits ∧ x.Fits ∧ (Operator.of .sub).level < x.level := by
  have hlevel : (Operator.of .sub).level = 5 := rfl
  rw [separated_fits sep (by simp [hlevel]), binary_fits rfl, hlevel]
  simp [hy]

theorem suffix_fits (ht : t.Fits) (hx : 5 ≤ x.level) : (v.suffix.phrase [t, x]).Fits ↔ x.Fits := by
  cases v with
  | sqlserver =>
    have hcall : 0 < (call "LEN" t).level := by simp
    exact (separated_fits "," hcall).trans
      ((and_iff_left ht).trans ((start_fits hx ",").trans (and_iff_right ht)))
  | sqlite | oracle | derby | db2 => exact (start_fits hx ",").trans (and_iff_right ht)
  | _ => exact (start_fits hx "FROM").trans (and_iff_right ht)

theorem slice_fits (ht : t.Fits) (hx : 5 ≤ x.level) (hy : 5 ≤ y.level) :
    (v.slice.phrase [t, x, y]).Fits ↔
      x.Fits ∧ y.Fits ∧ (Operator.of .sub).level < x.level := by
  have hslice (sep sep' : String) :
      (binary (binary t (.separator sep) (binary x (.of .add) (.word none Shape.number)))
        (.separator sep') (binary y (.of .sub) x)).Fits ↔
          x.Fits ∧ y.Fits ∧ (Operator.of .sub).level < x.level := by
    rw [length_fits hy, start_fits hx]
    tauto
  cases v with
  | sqlite | oracle | derby | db2 | sqlserver => exact hslice "," ","
  | _ => exact hslice "FROM" "FOR"

end Vendor

/-! ## Computations -/

abbrev ArithmeticOp := { op : BinaryOp // 4 ≤ op.level }

/-- An expression that stands for a text. It is taken as one word. -/
structure TextOperand where
  expr : Expr
  isText : expr.category = .string

/-- A number computed from columns, whole numbers and placeholders. -/
inductive Formula where
  | column (table : TableRef) (name logicalType : String)
  | number (n : Int)
  | parameter (key : MappingKey) (column : Nat) (logicalType : String)
  | arithmetic (left : Formula) (op : ArithmeticOp) (right : Formula)
  | modulo (dividend divisor : Formula)
  | indexOf (text part : TextOperand)

namespace TextOperand

def phrase (t : TextOperand) : Phrase := .word t.expr.table t.expr.node

def tree (t : TextOperand) : Tree := .word t.expr.table t.expr.node

theorem phrase_text (p : Profile) (t : TextOperand) : t.phrase.text p = t.expr.toSql p := by
  obtain ⟨⟨_, _, _, _⟩, _⟩ := t
  rfl

theorem phrase_fits (t : TextOperand) : t.phrase.Fits := trivial

end TextOperand

namespace Formula

def build (ctx : Context) : Formula → Except SqlError Expr
  | column table name logicalType => .ok (.column table name logicalType)
  | number n => .ok (.literal (.int n))
  | parameter key c logicalType => .ok (.parameter key c logicalType)
  | arithmetic left op right => do
    let l ← left.build ctx
    let r ← right.build ctx
    return l.arithmetic op r
  | modulo dividend divisor => do
    let l ← dividend.build ctx
    let r ← divisor.build ctx
    Expr.operation ctx.profile.vendor "mod" [l, r]
  | indexOf text part => text.expr.invoke ctx "indexOf" [part.expr]

variable (v : Vendor)

def tree : Formula → Tree
  | column table name _ => .word (some table) (.column name)
  | number n => .word none (.literal (.int n))
  | parameter key c _ => .word none (.parameter (.deferred key c))
  | arithmetic left op right => .binary left.tree (.of op) right.tree
  | modulo dividend divisor => v.modulo.tree [dividend.tree, divisor.tree]
  | indexOf text part => v.indexOf.tree [text.tree, part.tree]

def level : Formula → Nat
  | arithmetic _ op _ => (Operator.of op).level
  | indexOf _ _ => (Operator.of .sub).level
  | _ => 7

def isPosition : Formula → Bool
  | indexOf _ _ => true
  | _ => false

/-- Nothing stands next to an operator that takes it apart: a position stands on the left of sums and
differences only, and where a remainder is written with a percent sign, what is divided is no sum, difference
or position and the divisor is one word or a remainder. -/
def Placed : Formula → Prop
  | arithmetic left op right =>
    left.Placed ∧ right.Placed ∧ (left.isPosition → op.1.level = BinaryOp.sub.level) ∧
      right.isPosition = false
  | modulo dividend divisor =>
    dividend.Placed ∧ divisor.Placed ∧ (v = .sqlite ∨ v = .sqlserver →
      Operator.percent.level ≤ dividend.level ∧ Operator.percent.level < divisor.level)
  | _ => True

/-! ## The text of a number -/

def expr : Formula → Expr
  | column table name logicalType => .column table name logicalType
  | number n => .literal (.int n)
  | parameter key c logicalType => .parameter key c logicalType
  | arithmetic left op right => left.expr.arithmetic op right.expr
  | modulo dividend divisor =>
    .template v.modulo.text [dividend.expr, divisor.expr] .numeric dividend.expr.logicalType
  | indexOf text part => .template v.indexOf.text [text.expr, part.expr] .numeric "i32"

def phrase : Formula → Phrase
  | column table name _ => .word (some table) (.column name)
  | number n => .word none (.literal (.int n))
  | parameter key c _ => .word none (.parameter (.deferred key c))
  | arithmetic left op right =>
    .binary (parensIf ((left.expr v).needsParens op false) left.phrase) (.of op)
      (parensIf ((right.expr v).needsParens op true) right.phrase)
  | modulo dividend divisor => v.modulo.phrase [dividend.phrase, divisor.phrase]
  | indexOf text part => v.indexOf.phrase [text.phrase, part.phrase]

theorem build_eq_ok (ctx : Context) (f : Formula) : f.build ctx = .ok (f.expr ctx.profile.vendor) := by
  induction f with
  | arithmetic left op right ihl ihr =>
    rw [build, ihl, ihr]
    rfl
  | modulo dividend divisor ihl ihr =>
    rw [build, ihl, ihr]
    show Expr.operation _ _ _ = _
    rw [Expr.operation, Vendor.find_modulo]
    rfl
  | indexOf text part =>
    rw [build, Expr.invoke, text.isText, Vendor.find_indexOf]
    rfl
  | _ => rfl

theorem phrase_tree (f : Formula) : (f.phrase v).tree = f.tree v := by
  induction f with
  | arithmetic left op right ihl ihr =>
    rw [phrase, tree, Phrase.tree, parensIf_tree, parensIf_tree, ihl, ihr]
  | modulo dividend divisor ihl ihr =>
    rw [phrase, tree, Shape.phrase_tree, List.map_cons, List.map_singleton, ihl, ihr]
  | indexOf text part =>
    rw [phrase, tree, Shape.phrase_tree]
    rfl
  | _ => rfl

/-- Filling a template gives the text of its phrase, if the texts of the arguments are those of theirs. -/
theorem template_toSql {p : Profile} {x : Shape} (xs : List Phrase) (args : List Expr)
    (hx : x.fillable xs.length) (h : xs.map (Phrase.text p) = exprsToSql p args) (category : Category)
    (logicalType : String) :
    (x.phrase xs).text p = (Expr.template x.text args category logicalType).toSql p := by
  rw [← Shape.fill_text p hx, h]
  rfl

theorem phrase_text (p : Profile) (f : Formula) : (f.phrase v).text p = (f.expr v).toSql p := by
  obtain ⟨hmodulo, hindexOf, -, -⟩ := v.fillable
  induction f with
  | arithmetic left op right ihl ihr =>
    rw [phrase, Phrase.text, parensIf_text, parensIf_text, ihl, ihr]
    rfl
  | modulo dividend divisor ihl ihr =>
    refine template_toSql [dividend.phrase v, divisor.phrase v] _ hmodulo ?_ _ _
    rw [List.map_cons, List.map_singleton, ihl, ihr]
    rfl
  | indexOf text part =>
    refine template_toSql [text.phrase, part.phrase] _ hindexOf ?_ _ _
    rw [List.map_cons, List.map_singleton, text.phrase_text, part.phrase_text]
    rfl
  | _ => rfl

theorem phrase_level (f : Formula) : (f.phrase v).level = f.level := by
  cases f with
  | modulo dividend divisor => cases v <;> rfl
  | _ => rfl

theorem phrase_level_of_isBinary {f : Formula} (h : (f.expr v).isBinary) :
    (f.phrase v).level = (f.expr v).level + 1 := by
  cases f with
  | arithmetic left op right => rfl
  | _ => cases h

theorem five_le_level (f : Formula) : 5 ≤ f.level := by
  cases f with
  | arithmetic left op right => exact Nat.succ_le_succ op.2
  | _ => simp [level, Operator.level, BinaryOp.level]

theorem left_iff (f : Formula) (op : ArithmeticOp) :
    (f.expr v).isBinary ∨ op.1.level < (f.phrase v).level ↔
      (f.isPosition → op.1.level = BinaryOp.sub.level) := by
  have hop := op.2
  have hlt := op.1.level_lt
  rw [phrase_level]
  cases f with
  | arithmetic left op' right => exact iff_of_true (.inl rfl) nofun
  | indexOf text part =>
    have hexpr : ((indexOf text part).expr v).isBinary = false := rfl
    have hlevel : (indexOf text part).level = 5 := rfl
    have hsub : BinaryOp.sub.level = 4 := rfl
    simp only [hexpr, hlevel, hsub, isPosition, Bool.false_eq_true, false_or, forall_const]
    omega
  | _ => exact iff_of_true (.inr (Nat.lt_succ_of_lt hlt)) nofun

theorem right_iff (f : Formula) (op : ArithmeticOp) :
    (f.expr v).isBinary ∨ op.1.level + 1 < (f.phrase v).level ↔ f.isPosition = false := by
  have hop := op.2
  have hlt := op.1.level_lt
  rw [phrase_level]
  cases f with
  | arithmetic left op' right => exact iff_of_true (.inl rfl) rfl
  | indexOf text part =>
    have hexpr : ((indexOf text part).expr v).isBinary = false := rfl
    have hlevel : (indexOf text part).level = 5 := rfl
    simp only [hexpr, hlevel, isPosition, Bool.false_eq_true, Bool.true_eq_false, false_or, iff_false]
    omega
  | _ => exact iff_of_true (.inr (Nat.succ_lt_succ hlt)) rfl

theorem phrase_fits_iff (f : Formula) : (f.phrase v).Fits ↔ f.Placed v := by
  induction f with
  | arithmetic left op right ihl ihr =>
    have hword : 3 ≤ (right.phrase v).level := by
      rw [phrase_level]
      exact Nat.le_trans (by decide) right.five_le_level
    rw [phrase, Placed, Fits, parensIf_fits, parensIf_fits, ihl, ihr,
      Expr.left_level_iff (phrase_level_of_isBinary v),
      Expr.right_level_iff (phrase_level_of_isBinary v) fun _ => hword, left_iff, right_iff]
  | modulo dividend divisor ihl ihr =>
    have hdivisor : 0 < (divisor.phrase v).level := by
      rw [phrase_level]
      exact Nat.lt_of_lt_of_le (by decide) divisor.five_le_level
    rw [phrase, Placed, v.modulo_fits hdivisor, ihl, ihr, phrase_level, phrase_level]
  | indexOf text part => exact iff_of_true (v.indexOf_fits _ _ _ _) trivial
  | _ => exact Iff.rfl

end Formula

/-- A number, or a part of a text between computed places. -/
inductive Calculation where
  | number (f : Formula)
  | suffix (text : TextOperand) (start : Formula)
  | slice (text : TextOperand) (start finish : Formula)

namespace Calculation

def build (ctx : Context) : Calculation → Except SqlError Expr
  | number f => f.build ctx
  | suffix text start => do
    let b ← start.build ctx
    text.expr.invoke ctx "substring" [b]
  | slice text start finish => do
    let b ← start.build ctx
    let e ← finish.build ctx
    text.expr.invoke ctx "substring" [b, e]

variable (v : Vendor)

/-- What a calculation is. A part starts one behind its start, as texts are counted from 1, and it is as long
as its start is before its end. -/
def tree : Calculation → Tree
  | number f => f.tree v
  | suffix text start => v.suffix.tree [text.tree, start.tree v]
  | slice text start finish => v.slice.tree [text.tree, start.tree v, finish.tree v]

/-- Nothing stands next to an operator that takes it apart: the start of a part that has an end, which is
taken away from the end, is no sum, difference or position. -/
def Placed : Calculation → Prop
  | number f => f.Placed v
  | suffix _ start => start.Placed v
  | slice _ start finish =>
    start.Placed v ∧ finish.Placed v ∧ (Operator.of .sub).level < start.level

def expr : Calculation → Expr
  | number f => f.expr v
  | suffix text start => .template v.suffix.text [text.expr, start.expr v] .string "string"
  | slice text start finish =>
    .template v.slice.text [text.expr, start.expr v, finish.expr v] .string "string"

def phrase : Calculation → Phrase
  | number f => f.phrase v
  | suffix text start => v.suffix.phrase [text.phrase, start.phrase v]
  | slice text start finish => v.slice.phrase [text.phrase, start.phrase v, finish.phrase v]

theorem phrase_tree (c : Calculation) : (c.phrase v).tree = c.tree v := by
  cases c with
  | number f => exact f.phrase_tree v
  | suffix text start =>
    rw [phrase, tree, Shape.phrase_tree, List.map_cons, List.map_singleton, start.phrase_tree]
    rfl
  | slice text start finish =>
    rw [phrase, tree, Shape.phrase_tree, List.map_cons, List.map_cons, List.map_singleton,
      start.phrase_tree, finish.phrase_tree]
    rfl

theorem phrase_fits_iff (c : Calculation) : (c.phrase v).Fits ↔ c.Placed v := by
  have hlevel (f : Formula) : 5 ≤ (f.phrase v).level := by
    rw [f.phrase_level]
    exact f.five_le_level
  cases c with
  | number f => exact f.phrase_fits_iff v
  | suffix text start =>
    rw [phrase, Placed, v.suffix_fits text.phrase_fits (hlevel start), start.phrase_fits_iff]
  | slice text start finish =>
    rw [phrase, Placed, v.slice_fits text.phrase_fits (hlevel start) (hlevel finish), start.phrase_fits_iff,
      finish.phrase_fits_iff, start.phrase_level]

theorem build_eq_ok (ctx : Context) (c : Calculation) :
    c.build ctx = .ok (c.expr ctx.profile.vendor) := by
  cases c with
  | number f => exact f.build_eq_ok ctx
  | suffix text start =>
    rw [build, start.build_eq_ok]
    show Expr.invoke _ _ _ _ = _
    rw [Expr.invoke, text.isText, Vendor.find_substring]
    rfl
  | slice text start finish =>
    rw [build, start.build_eq_ok, finish.build_eq_ok]
    show Expr.invoke _ _ _ _ = _
    rw [Expr.invoke, text.isText, Vendor.find_substring]
    rfl

theorem phrase_text (p : Profile) (c : Calculation) : (c.phrase v).text p = (c.expr v).toSql p := by
  obtain ⟨-, -, hsuffix, hslice⟩ := v.fillable
  cases c with
  | number f => exact f.phrase_text v p
  | suffix text start =>
    refine Formula.template_toSql [text.phrase, start.phrase v] _ hsuffix ?_ _ _
    rw [List.map_cons, List.map_singleton, text.phrase_text, start.phrase_text]
    rfl
  | slice text start finish =>
    refine Formula.template_toSql [text.phrase, start.phrase v, finish.phrase v] _ hslice ?_ _ _
    rw [List.map_cons, List.map_cons, List.map_singleton, text.phrase_text, start.phrase_text,
      finish.phrase_text]
    rfl

/-- Every calculation is built, its text is a row of words, and they are read as the calculation exactly if
nothing in it is taken apart. -/
theorem build_readAs_iff (ctx : Context) (p : Profile) (c : Calculation) :
    ∃ e, c.build ctx = .ok e ∧ spell p true (c.phrase ctx.profile.vendor).tokens = e.toSql p ∧
      (ReadAs (c.phrase ctx.profile.vendor).tokens (c.tree ctx.profile.vendor) ↔
        c.Placed ctx.profile.vendor) := by
  refine ⟨_, c.build_eq_ok ctx, (spell_tokens p _).trans (c.phrase_text _ p), ?_⟩
  rw [← phrase_tree, readAs_iff, phrase_fits_iff]

/-- The length of a part that starts behind a sum is read as one that the second summand is added to. -/
theorem slice_behind_sum :
    let place := Formula.arithmetic (.column ⟨"T", "A0"⟩ "a" "i64") ⟨.add, by decide⟩ (.number 1)
    let c := slice ⟨.column ⟨"T", "A0"⟩ "s" "string", rfl⟩ place (.number 5)
    let ctx : Context := ⟨.ofVendor .postgresql ⟨16, 0, 0⟩, .where⟩
    ∃ e, c.build ctx = .ok e ∧
      (e.toSql ctx.profile).sql = "SUBSTRING(A0.s FROM A0.a + 1 + 1 FOR 5 - A0.a + 1)" ∧
      ¬ReadAs (c.phrase .postgresql).tokens (c.tree .postgresql) := by
  refine ⟨_, rfl, by decide, fun hread => ?_⟩
  rw [← phrase_tree, readAs_iff] at hread
  exact absurd hread (by decide)

end Calculation

end ObjectSql
