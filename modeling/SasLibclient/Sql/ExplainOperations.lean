import SasLibclient.Sql.OriginalTable

/-!
# The check of the query plan (`s2_connection.cpp`)

`CheckExplainOperations` reads the rows of `EXPLAIN CREATE RESULT TABLE`. It
skips the warnings, up to the row of the result table, and wants every row after
it to be a scan or a filter. Without that row it checks nothing.
-/

namespace SasLibclient

/-- `!strncmp(row[0], "ResultTable", strlen("ResultTable"))` -/
def isResultTable (row : String) : Bool := "ResultTable".toList.isPrefixOf row.toList

/-- A plan that only scans: every row after the first one of a result table is a
scan or a filter, and there is such a row. -/
def SimplePlan (rows : List String) : Prop :=
  ∃ before header after, rows = before ++ header :: after ∧
    (∀ row ∈ before, isResultTable row = false) ∧ isResultTable header = true ∧
    ∀ row ∈ after, isScanOperation (explainOperation row) = true

variable {rows : List String}

theorem checkExplainLoop_cons (checkOperation : Bool) (row : String) (rows : List String) :
    checkExplainLoop checkOperation (row :: rows) =
      if checkOperation && !isScanOperation (explainOperation row) then
        false
      else
        checkExplainLoop (checkOperation || isResultTable row) rows := by
  rw [checkExplainLoop, isResultTable]

theorem checkExplainLoop_true :
    checkExplainLoop true rows = true ↔
      ∀ row ∈ rows, isScanOperation (explainOperation row) = true := by
  induction rows with
  | nil => simp [checkExplainLoop]
  | cons row rows ih => simp [checkExplainLoop, ih]

/-- Rows that are no result table are skipped. -/
theorem checkExplainLoop_skip (h : ∀ row ∈ rows, isResultTable row = false) (rest : List String) :
    checkExplainLoop false (rows ++ rest) = checkExplainLoop false rest := by
  induction rows with
  | nil => rfl
  | cons row rows ih =>
    obtain ⟨hrow, hrows⟩ := List.forall_mem_cons.mp h
    rw [List.cons_append, checkExplainLoop_cons]
    simpa [hrow] using ih hrows

/-- A plan without a row of a result table is accepted. -/
theorem checkExplainOperations_skip (h : ∀ row ∈ rows, isResultTable row = false) :
    checkExplainOperations rows = true := by
  have hrun := checkExplainLoop_skip h []
  rw [List.append_nil] at hrun
  exact hrun

/-- The first row of a result table, when there is one. -/
theorem exists_header (h : ∃ row ∈ rows, isResultTable row = true) :
    ∃ before header after, rows = before ++ header :: after ∧
      (∀ row ∈ before, isResultTable row = false) ∧ isResultTable header = true := by
  induction rows with
  | nil => simp at h
  | cons row rows ih =>
    by_cases hrow : isResultTable row = true
    · exact ⟨[], row, rows, rfl, by simp, hrow⟩
    · obtain ⟨header, hmem, hheader⟩ := h
      rcases List.mem_cons.mp hmem with rfl | hmem
      · exact absurd hheader hrow
      · obtain ⟨before, header, after, rfl, hbefore, hfirst⟩ := ih ⟨header, hmem, hheader⟩
        refine ⟨row :: before, header, after, rfl, ?_, hfirst⟩
        intro row' hrow'
        rcases List.mem_cons.mp hrow' with rfl | hrow'
        · exact Bool.eq_false_iff.mpr hrow
        · exact hbefore row' hrow'

theorem checkExplainOperations_header {before after : List String} {header : String}
    (hbefore : ∀ row ∈ before, isResultTable row = false) (hheader : isResultTable header = true) :
    checkExplainOperations (before ++ header :: after) = true ↔
      ∀ row ∈ after, isScanOperation (explainOperation row) = true := by
  rw [checkExplainOperations, checkExplainLoop_skip hbefore, checkExplainLoop_cons]
  simpa [hheader] using checkExplainLoop_true

/-- There is only one first row of a result table. -/
theorem simplePlan_header {before after : List String} {header : String}
    (hbefore : ∀ row ∈ before, isResultTable row = false) (hheader : isResultTable header = true) :
    SimplePlan (before ++ header :: after) ↔
      ∀ row ∈ after, isScanOperation (explainOperation row) = true := by
  constructor
  · rintro ⟨before', header', after', heq, hbefore', hheader', hafter⟩
    have hsimple := (checkExplainOperations_header hbefore' hheader').mpr hafter
    rw [← heq] at hsimple
    exact (checkExplainOperations_header hbefore hheader).mp hsimple
  · exact fun hafter => ⟨before, header, after, rfl, hbefore, hheader, hafter⟩

/-- **When the check tells the simple plans**: for the rows that have one of a
result table. -/
theorem checkExplainOperations_iff (rows : List String) :
    (checkExplainOperations rows = true ↔ SimplePlan rows) ↔
      ∃ row ∈ rows, isResultTable row = true := by
  by_cases hheader : ∃ row ∈ rows, isResultTable row = true
  · obtain ⟨before, header, after, rfl, hbefore, hfirst⟩ := exists_header hheader
    rw [checkExplainOperations_header hbefore hfirst, simplePlan_header hbefore hfirst]
    exact iff_of_true Iff.rfl hheader
  · refine iff_of_false ?_ hheader
    intro h
    have hskip : ∀ row ∈ rows, isResultTable row = false := by
      intro row hrow
      exact Bool.eq_false_iff.mpr fun hresult => hheader ⟨row, hrow, hresult⟩
    obtain ⟨before, header, after, rfl, -, hfirst, -⟩ := h.mp (checkExplainOperations_skip hskip)
    exact hheader ⟨header, by simp, hfirst⟩

/-- A plan with a grouping, without the row of the result table. -/
theorem checkExplainOperations_no_header :
    checkExplainOperations ["Project [r0.id]", "HashGroupBy [] groups:[r0.id]"] = true ∧
      ¬ SimplePlan ["Project [r0.id]", "HashGroupBy [] groups:[r0.id]"] := by
  refine ⟨by decide, ?_⟩
  rintro ⟨before, header, after, heq, -, hheader, -⟩
  have hmem : header ∈ ["Project [r0.id]", "HashGroupBy [] groups:[r0.id]"] := by
    rw [heq]
    simp
  have hnone : ∀ row ∈ ["Project [r0.id]", "HashGroupBy [] groups:[r0.id]"],
      isResultTable row = false := by decide
  rw [hnone header hmem] at hheader
  cases hheader

end SasLibclient
