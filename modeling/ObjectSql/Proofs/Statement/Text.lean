import ObjectSql.Statement.Text

/-!
# Texts as words

Appending texts appends their SQL and their parameters, so texts are a monoid.
-/
namespace ObjectSql.SqlText

@[simp] theorem append_sql (a b : SqlText) : (a ++ b).sql = a.sql ++ b.sql := rfl

@[simp] theorem append_params (a b : SqlText) : (a ++ b).params = a.params ++ b.params := rfl

theorem ext {a b : SqlText} (hsql : a.sql = b.sql) (hparams : a.params = b.params) : a = b := by
  cases a
  cases b
  simp_all

theorem append_assoc (a b c : SqlText) : a ++ b ++ c = a ++ (b ++ c) :=
  ext (String.append_assoc ..) (List.append_assoc ..)

@[simp] theorem empty_append (a : SqlText) : empty ++ a = a :=
  ext String.empty_append (List.nil_append _)

@[simp] theorem append_empty (a : SqlText) : a ++ empty = a :=
  ext String.append_empty (List.append_nil _)

theorem raw_append_raw (s t : String) : raw (s ++ t) = raw s ++ raw t := rfl

theorem raw_ofList_append (cs cs' : List Char) :
    raw (String.ofList (cs ++ cs')) = raw (String.ofList cs) ++ raw (String.ofList cs') := by
  rw [String.ofList_append, raw_append_raw]

theorem concat_sql (ts : List SqlText) : (concat ts).sql = String.join (ts.map SqlText.sql) := by
  induction ts with
  | nil => rfl
  | cons t ts ih => rw [concat, append_sql, ih, List.map_cons, String.join_cons]

end ObjectSql.SqlText
