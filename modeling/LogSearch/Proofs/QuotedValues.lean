import LogSearch.Proofs.TypedValues

/-!
# Values in double quotes

Blanks, colons, operators and whole filters mean something in a query.  Between double quotes they
are characters of a value, whatever operator stands before the quotes.  Only a double quote is not:
it ends the value, since there is no way to write one inside.

* `Span.fits_quoted`, `Span.filter?_quoted` — a field, an operator and a text in double quotes are
  one span, and one filter if the field takes the text.
* `parse_quoted_iff` — fields of texts and dates take every text, so the filter is read back if and
  only if no double quote is in its value.
-/

namespace LogSearch

variable {fld : Field} {op : Option Operator} {v : Text}

/-! ## Fields -/

namespace Field

lemma name_ne_nil (fld : Field) : fld.name ≠ [] := by
  cases fld <;> decide

lemma isWord_of_mem_name (fld : Field) : ∀ c ∈ fld.name, isWord c := by
  refine List.all_eq_true.1 ?_
  cases fld <;> decide +kernel

/-- Fields of texts and dates take every text. -/
lemma coerce?_of_kind (h : fld.kind = .string ∨ fld.kind = .date) (s : Text) :
    fld.coerce? s = some (.text s) := by
  cases fld <;> simp [kind, coerce?] at h ⊢

end Field

/-! ## One filter -/

namespace Span

/-- In front of any text, a value in double quotes goes on to the second of them. -/
lemma fits_quoted (fld : Field) (op : Option Operator) (hq : chr '"' ∉ v) (rest : Text) :
    Fits ⟨fld.name, Operator.textOf op ++ quoted v⟩ rest :=
  ⟨fld.name_ne_nil, fld.isWord_of_mem_name, Or.inl ⟨op, v, rfl, hq⟩⟩

/-- The operator is split off and the quotes are dropped, whatever stands between them. -/
lemma filter?_quoted (h : fld.kind = .string ∨ fld.kind = .date) (op : Option Operator) (v : Text) :
    filter? ⟨fld.name, Operator.textOf op ++ quoted v⟩
      = some ⟨fld.name, op.getD .eq, .text v, Operator.textOf op ++ quoted v⟩ := by
  rw [filter?, Filter.read?_quoted, Field.ofName?_name, Option.bind_some, Field.coerce?_of_kind h,
    Option.map_some]

end Span

/-! ## Reading back -/

/-- With a double quote in it, a value is read up to there. -/
lemma exists_filters_quoted (h : fld.kind = .string ∨ fld.kind = .date) (op : Option Operator)
    (hq : chr '"' ∈ v) : ∃ a b rest, v = a ++ chr '"' :: b ∧
      (Query.parse (Span.text ⟨fld.name, Operator.textOf op ++ quoted v⟩)).filters
        = ⟨fld.name, op.getD .eq, .text a, Operator.textOf op ++ quoted a⟩ :: rest := by
  obtain ⟨a, b, rfl, ha⟩ := List.eq_append_cons_of_mem hq
  have hcut : Span.text ⟨fld.name, Operator.textOf op ++ quoted (a ++ chr '"' :: b)⟩
      = Span.text ⟨fld.name, Operator.textOf op ++ quoted a⟩ ++ (b ++ [chr '"']) := by
    simp [Span.text, quoted]
  have hfits := Span.fits_quoted fld op ha (b ++ [chr '"'])
  have hfirst := Span.first?_of_atStart? (Span.atStart?_eq_some_iff.2 ⟨rfl, hfits⟩)
  refine ⟨a, b, (Query.parse (b ++ [chr '"'])).filters, rfl, ?_⟩
  rw [hcut, Query.filters_of_some hfirst, Span.filter?_quoted h]
  rfl

/-- **Quoting protects a value.**  Take a field of texts or dates, an operator and a text.  The
query that sets the text in double quotes after the field and the operator is read as exactly the
filter of these three, and no free text, if and only if no double quote is in the text. -/
theorem parse_quoted_iff (fld : Field) (h : fld.kind = .string ∨ fld.kind = .date) (op : Operator)
    (v : Text) : Query.parse (fld.name ++ chr ':' :: (op.text ++ quoted v))
      = ⟨[⟨fld.name, op, .text v, op.text ++ quoted v⟩], []⟩ ↔ chr '"' ∉ v := by
  constructor
  · intro hparse hq
    obtain ⟨a, b, rest, rfl, hfilters⟩ := exists_filters_quoted h (some op) hq
    have hlist := (congrArg Query.filters hparse).symm.trans hfilters
    have hvalue := congrArg Filter.value (List.cons.inj hlist).1
    simp at hvalue
  · intro hq
    exact Query.parse_text (Span.fits_quoted fld (some op) hq [])
      (Span.filter?_quoted h (some op) v)

/-- A value that holds a filter, a line break and an operator, and the empty value. -/
theorem parse_quoted_iff_folder :
    Field.folder.kind = .string ∧
      Query.parse "folder:!=\"a: cost:>1\n>= b\"".text
        = ⟨[⟨"folder".text, .ne, .text "a: cost:>1\n>= b".text,
            "!=\"a: cost:>1\n>= b\"".text⟩], []⟩ ∧
      Query.parse "date:>=\"\"".text
        = ⟨[⟨"date".text, .ge, .text [], ">=\"\"".text⟩], []⟩ :=
  ⟨rfl, (parse_quoted_iff .folder (Or.inl rfl) .ne "a: cost:>1\n>= b".text).2 (by decide),
    (parse_quoted_iff .date (Or.inr rfl) .ge []).2 (by decide)⟩

end LogSearch
