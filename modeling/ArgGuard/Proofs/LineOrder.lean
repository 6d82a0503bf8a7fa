import ArgGuard.Proofs.FailFast

/-!
# Diagnostics in line order

Notices are given where a sub ends and tell the line where it starts, while warnings are given at
their own line. Both still come in the order of lines: as long as a sub with metadata is open its
tags get guards, so no warning can overtake the notices that are due for it. What a scan has
reported together with what is due for the open sub is in order at every line.
-/

namespace ArgGuard

/-- Whether a diagnostic is a warning. -/
def Diagnostic.isWarning (d : Diagnostic) : Bool := d.severity = .warning

/-- One diagnostic is about an earlier line than another one, or both are notices about the same
line. -/
def Diagnostic.Precedes (d e : Diagnostic) : Prop :=
  ∃ m n, d.line = some m ∧ e.line = some n ∧ (m < n ∨ m = n ∧ d.isNotice ∧ e.isNotice)

/-- Notices and warnings in order about lines with numbers below a bound. -/
structure InLineOrder (bound : Nat) (ds : List Diagnostic) : Prop where
  /-- They follow each other in order. -/
  pairwise : ds.Pairwise Diagnostic.Precedes
  /-- They are about lines below the bound. -/
  line : ∀ d ∈ ds, ∃ n, d.line = some n ∧ 1 ≤ n ∧ n < bound
  /-- None is fatal. -/
  severity : ∀ d ∈ ds, d.isNotice ∨ d.isWarning

namespace InLineOrder

variable {bound : Nat} {ds others : List Diagnostic}

/-- Nothing is in order. -/
theorem nil (bound : Nat) : InLineOrder bound [] := ⟨.nil, by simp, by simp⟩

/-- What is in order stays so when more lines are read. -/
theorem mono (h : InLineOrder bound ds) {higher : Nat} (hle : bound ≤ higher) :
    InLineOrder higher ds where
  pairwise := h.pairwise
  line d hd := by
    obtain ⟨n, hline, hlow, hhigh⟩ := h.line d hd
    exact ⟨n, hline, hlow, by omega⟩
  severity := h.severity

/-- What is left of diagnostics in order is in order. -/
theorem sublist (h : InLineOrder bound ds) (hs : others.Sublist ds) : InLineOrder bound others where
  pairwise := h.pairwise.sublist hs
  line d hd := h.line d (hs.subset hd)
  severity d hd := h.severity d (hs.subset hd)

/-- Diagnostics about the next line come behind those about lines above it. -/
theorem append (h : InLineOrder bound ds) (hb : 1 ≤ bound)
    (hline : ∀ d ∈ others, d.line = some bound)
    (hothers : others.Pairwise Diagnostic.Precedes)
    (hseverity : ∀ d ∈ others, d.isNotice ∨ d.isWarning) :
    InLineOrder (bound + 1) (ds ++ others) where
  pairwise := by
    refine List.pairwise_append.2 ⟨h.pairwise, hothers, fun d hd e he => ?_⟩
    obtain ⟨n, hn, -, hlt⟩ := h.line d hd
    exact ⟨n, bound, hn, hline e he, .inl hlt⟩
  line d hd := by
    rcases List.mem_append.1 hd with hd | hd
    · obtain ⟨n, hn, hlow, hhigh⟩ := h.line d hd
      exact ⟨n, hn, hlow, by omega⟩
    · exact ⟨bound, hline d hd, hb, by omega⟩
  severity d hd := by
    rcases List.mem_append.1 hd with hd | hd
    · exact h.severity d hd
    · exact hseverity d hd

/-- Notices about the next line come behind diagnostics about lines above it. -/
theorem append_notices (h : InLineOrder bound ds) (hb : 1 ≤ bound)
    (hline : ∀ d ∈ others, d.line = some bound) (hnotice : ∀ d ∈ others, d.isNotice) :
    InLineOrder (bound + 1) (ds ++ others) := by
  refine h.append hb hline ?_ fun d hd => .inl (hnotice d hd)
  refine List.pairwise_of_forall_mem_list fun d hd e he => ?_
  exact ⟨bound, bound, hline d hd, hline e he, .inr ⟨rfl, hnotice d hd, hnotice e he⟩⟩

/-- The numbers of the lines do not decrease. -/
theorem exists_numbers (h : InLineOrder bound ds) :
    ∃ numbers : List Nat, ds.map Diagnostic.line = numbers.map some ∧
      numbers.Pairwise (· ≤ ·) ∧ ∀ n ∈ numbers, 1 ≤ n ∧ n < bound := by
  have hnumber (d : Diagnostic) (hd : d ∈ ds) : d.line = some (d.line.getD 0) := by
    obtain ⟨n, hn, -⟩ := h.line d hd
    rw [hn, Option.getD_some]
  refine ⟨ds.map fun d => d.line.getD 0, ?_, ?_, ?_⟩
  · rw [List.map_map]
    exact List.map_congr_left hnumber
  · refine List.pairwise_map.2 (h.pairwise.imp fun {d e} hde => ?_)
    obtain ⟨m, n, hm, hn, hlt | ⟨heq, -⟩⟩ := hde
    · simp only [hm, hn, Option.getD_some]
      omega
    · simp only [hm, hn, Option.getD_some]
      omega
  · intro n hn
    obtain ⟨d, hd, rfl⟩ := List.mem_map.1 hn
    obtain ⟨n, hn, hbounds⟩ := h.line d hd
    rwa [hn, Option.getD_some]

/-- No two warnings are about the same line. -/
theorem nodup_warnings (h : InLineOrder bound ds) :
    ((ds.filter Diagnostic.isWarning).map Diagnostic.line).Nodup := by
  refine List.pairwise_map.2 ?_
  have hwarnings : (ds.filter Diagnostic.isWarning).Pairwise Diagnostic.Precedes :=
    h.pairwise.sublist List.filter_sublist
  refine hwarnings.imp_of_mem fun {d e} hd _ hde heq => ?_
  obtain ⟨m, n, hm, hn, hlt | ⟨-, hnotice, -⟩⟩ := hde
  · rw [hm, hn, Option.some.injEq] at heq
    omega
  · have hwarning := (List.mem_filter.1 hd).2
    simp_all [Diagnostic.isNotice, Diagnostic.isWarning]

end InLineOrder

namespace Scan

variable {setting : ScanSetting} {guards : Nat → Option Guard} {scan next last : Scan}
  {number : Nat} {line : Line} {lines : List Line} {guard : Option Guard} {y : Yield}

/-- Where a sub ends, notices are given about the line of its declaration. -/
theorem of_mem_closingNotices {file : Text} {sub : Sub} {d : Diagnostic}
    (h : d ∈ closingNotices file (some sub)) : d.line = some sub.line ∧ d.isNotice := by
  unfold closingNotices at h
  split at h
  next name line m validated _ _ heq =>
    obtain rfl := Option.some.inj heq
    obtain ⟨argument, -, rfl⟩ := List.mem_map.1 h
    exact ⟨rfl, rfl⟩
  next => simp at h

/-- A guard only takes away from what is due where its sub ends. -/
theorem closingNotices_subAfter_sublist (file : Text) (sub : Sub) (tag : Tag) (guard : Guard) :
    (closingNotices file (some (subAfter sub tag guard))).Sublist
      (closingNotices file (some sub)) := by
  obtain ⟨name, line, metadata, validated, sawAll, declared⟩ := sub
  cases metadata with
  | none => exact List.Sublist.refl _
  | some m =>
    refine List.Sublist.map _ (List.monotone_filter_right _ fun argument hargument => ?_)
    simp_all

/-- Where a tag has no effect, nothing is due. -/
theorem closingNotices_of_skipReason? {file : Text} {sub : Option Sub} {tag : Tag} {reason : Text}
    (h : skipReason? sub tag = some reason) : closingNotices file sub = [] := by
  cases sub with
  | none => rfl
  | some sub =>
    obtain ⟨name, line, metadata, validated, sawAll, declared⟩ := sub
    cases metadata with
    | none => rfl
    | some m => simp [skipReason?] at h

/-- Every line keeps the order of what is reported, with what is due for the open sub. -/
theorem Advance.inLineOrder (h : Advance setting scan number line guard next y)
    (hnumber : 1 ≤ number) {before : List Diagnostic}
    (hbefore : InLineOrder number (before ++ closingNotices setting.file scan.sub)) :
    InLineOrder (number + 1)
      (before ++ y.diagnostics ++ closingNotices setting.file next.sub) := by
  have hsame := hbefore.mono (Nat.le_succ number)
  cases h with
  | quiet => simpa using hsame
  | codeEnd => simpa [closingNotices] using hsame
  | package => simpa [closingNotices] using hsame
  | function =>
    refine hbefore.append_notices hnumber (fun d hd => ?_) fun d hd => ?_
    · exact (of_mem_closingNotices hd).1
    · exact (of_mem_closingNotices hd).2
  | @skipped tag reason hr hk hs =>
    have hnone : closingNotices setting.file scan.sub = [] := closingNotices_of_skipReason? hs
    rw [hnone, List.append_nil] at hbefore ⊢
    refine hbefore.append hnumber ?_ (List.pairwise_singleton _ _) ?_ <;>
      simp [unchanged, Diagnostic.isWarning]
  | @guarded tag sub m g hr hk hs hm hg =>
    rw [hs] at hsame
    rw [List.append_nil]
    exact hsame.sublist
      ((List.Sublist.refl before).append (closingNotices_subAfter_sublist _ sub tag g))

/-- A run keeps the order of what is reported, with what is due for the open sub. -/
theorem Runs.inLineOrder (h : Runs setting guards scan number lines last y)
    (hnumber : 1 ≤ number) {before : List Diagnostic}
    (hbefore : InLineOrder number (before ++ closingNotices setting.file scan.sub)) :
    InLineOrder (number + lines.length)
      (before ++ y.diagnostics ++ closingNotices setting.file last.sub) := by
  induction h generalizing before with
  | nil => simpa using hbefore
  | cons hline hrest ih =>
    have hnext := ih (by omega) (hline.inLineOrder hnumber hbefore)
    rw [List.length_cons, Nat.add_comm _ 1, ← Nat.add_assoc, Yield.diagnostics_append,
      ← List.append_assoc]
    exact hnext

end Scan

namespace Section

/-- The required arguments of a section to which no tag refers. -/
def dueArguments (s : Section) (setting : ScanSetting) : List Text :=
  match s.metadata? setting.store with
  | none => []
  | some m => m.requiredArgs.filter fun argument => !s.lines.any (·.covers argument)

/-- The notices due for a section are about its due arguments. -/
theorem due_eq (s : Section) (setting : ScanSetting) :
    s.due setting = (s.dueArguments setting).map (s.notice setting.file) := by
  unfold due dueArguments
  cases s.metadata? setting.store <;> rfl

/-- No argument of a section is due twice. -/
theorem nodup_dueArguments (s : Section) (setting : ScanSetting) :
    (s.dueArguments setting).Nodup := by
  unfold dueArguments
  split
  next => exact List.nodup_nil
  next m _ => exact m.nodup_requiredArgs.filter _

end Section

/-- The sections of lines, each with every argument about which a notice is due. -/
def dueIn (setting : ScanSetting) (lines : List Line) : List (Section × Text) :=
  (sections lines).flatMap fun s => (s.dueArguments setting).map fun argument => (s, argument)

/-- The notices due in lines, by sections and arguments. -/
theorem flatMap_due_eq (setting : ScanSetting) (lines : List Line) :
    (sections lines).flatMap (·.due setting) =
      (dueIn setting lines).map fun (s, argument) => s.notice setting.file argument := by
  rw [dueIn, List.map_flatMap]
  simp only [List.map_map, Function.comp_def, Section.due_eq]

/-- No argument is due twice about the same line. -/
theorem nodup_dueIn (setting : ScanSetting) (lines : List Line) :
    ((dueIn setting lines).map fun (s, argument) => (s.number, argument)).Nodup := by
  rw [dueIn, List.map_flatMap]
  simp only [List.map_map, Function.comp_def]
  refine List.nodup_flatMap.2 ⟨fun s _ => ?_, ?_⟩
  · exact (s.nodup_dueArguments setting).map fun a b hab => (Prod.mk.inj hab).2
  · refine (pairwise_sections lines).imp fun {s t} hlt x hs ht => ?_
    obtain ⟨_, -, rfl⟩ := List.mem_map.1 hs
    obtain ⟨_, -, heq⟩ := List.mem_map.1 ht
    have hsame := (Prod.mk.inj heq).1
    omega

/-- What a scan of lines reports: notices and warnings in the order of lines, at most one warning
about a line, and at most one notice about a sub declaration and an argument. -/
structure ReportsInOrder (setting : ScanSetting) (lines : List Line) (ds : List Diagnostic) :
    Prop where
  /-- Their lines do not decrease, and are among those that are scanned. -/
  numbers : ∃ numbers : List Nat, ds.map Diagnostic.line = numbers.map some ∧
    numbers.Pairwise (· ≤ ·) ∧ ∀ n ∈ numbers, 1 ≤ n ∧ n ≤ lines.length
  /-- None is fatal. -/
  severity : ∀ d ∈ ds, d.severity = .notice ∨ d.severity = .warning
  /-- No two warnings are about the same line. -/
  warnings : ((ds.filter Diagnostic.isWarning).map Diagnostic.line).Nodup
  /-- Every notice is about an argument of a sub declaration, and no two are about the same
  argument of the same one. -/
  notices : ∃ about : List (Section × Text),
    ds.filter Diagnostic.isNotice =
        about.map (fun (s, argument) => s.notice setting.file argument) ∧
      (∀ x ∈ about, x.1 ∈ sections lines) ∧
      (about.map fun (s, argument) => (s.number, argument)).Nodup

/-- The first diagnostics of those that are due in order are in order. -/
theorem ReportsInOrder.of_front {setting : ScanSetting} {lines : List Line}
    {ds others : List Diagnostic} (hs : others <+: ds)
    (horder : InLineOrder (1 + lines.length) ds)
    (hnotices : ds.filter Diagnostic.isNotice = (sections lines).flatMap (·.due setting)) :
    ReportsInOrder setting lines others := by
  have hfirst := horder.sublist hs.sublist
  refine ⟨?_, fun d hd => ?_, hfirst.nodup_warnings, ?_⟩
  · obtain ⟨numbers, hlines, hsorted, hbounds⟩ := hfirst.exists_numbers
    refine ⟨numbers, hlines, hsorted, fun n hn => ?_⟩
    have hn := hbounds n hn
    omega
  · simpa [Diagnostic.isNotice, Diagnostic.isWarning] using hfirst.severity d hd
  · rw [flatMap_due_eq] at hnotices
    have htake := List.prefix_iff_eq_take.1 (hs.filter Diagnostic.isNotice)
    rw [hnotices, ← List.map_take] at htake
    refine ⟨_, htake, fun x hx => ?_, ?_⟩
    · obtain ⟨s, hs, hx⟩ := List.mem_flatMap.1 (List.mem_of_mem_take hx)
      obtain ⟨argument, -, rfl⟩ := List.mem_map.1 hx
      exact hs
    · rw [List.map_take]
      exact (nodup_dueIn setting lines).sublist (List.take_sublist ..)

/-- A run and what is due at its end report in order, also when less is due. -/
theorem Scan.reportsInOrder_of_run {setting : ScanSetting} {lines : List Line} {last : Scan}
    {y : Yield} (h : Scan.run setting {} 1 lines = .ok (last, y)) {others : List Diagnostic}
    (hothers : others <+: Scan.closingNotices setting.file last.sub) :
    ReportsInOrder setting lines (y.diagnostics ++ others) := by
  obtain ⟨guards, hruns, hrange⟩ := Scan.Runs.of_run h
  have hguards := hruns.areGuards hrange
  have hcode : codeLines lines = codeLines lines ++ [] := (List.append_nil _).symm
  have hstart : InLineOrder 1 ([] ++ Scan.closingNotices setting.file none) := .nil 1
  refine .of_front ((List.prefix_append_right_inj _).2 hothers)
    (hruns.inLineOrder (Nat.le_refl 1) hstart) ?_
  rw [List.filter_append, hruns.notices_eq hguards hcode, Scan.filter_isNotice_closingNotices,
    hruns.agrees.sub, hguards.closingNotices_eq hcode, sections_eq, List.flatMap_append]

/-- Whether a source is processed or fails, what is reported comes in the order of lines. A failure
is reported about the last line that was scanned, and everything else about lines above it. -/
theorem process_reportsInOrder (setting : ScanSetting) (source : Text) :
    match process setting source with
    | .ok z => ReportsInOrder setting source.lines z.diagnostics
    | .error f => ∃ n, f.fatal.line = some n ∧ f.fatal.severity = .fatal ∧
        1 ≤ n ∧ n ≤ source.lines.length ∧
        (∀ d ∈ f.diagnostics, ∀ m, d.line = some m → m < n) ∧
        ReportsInOrder setting (source.lines.take (n - 1)) f.diagnostics := by
  cases hrun : Scan.run setting {} 1 source.lines with
  | ok result =>
    obtain ⟨last, y⟩ := result
    rw [process, hrun]
    exact Scan.reportsInOrder_of_run hrun (List.prefix_refl _)
  | error f =>
    rw [process_eq_error_iff.2 hrun]
    obtain ⟨before, line, after, last, y, failure, message, hlines, hbefore, hstop, rfl, -, hfatal,
      hdue⟩ := Scan.exists_firstFatal_of_run hrun
    have hreports : ReportsInOrder setting before (y.diagnostics ++ failure.diagnostics) :=
      Scan.reportsInOrder_of_run hbefore ⟨_, hdue.symm⟩
    have hlength : before.length + 1 ≤ source.lines.length := by
      rw [hlines, List.length_append, List.length_cons]
      omega
    refine ⟨before.length + 1, congrArg Diagnostic.line hfatal,
      congrArg Diagnostic.severity hfatal, Nat.le_add_left 1 _, hlength, ?_, ?_⟩
    · intro d hd m hm
      obtain ⟨numbers, hnumbers, -, hbounds⟩ := hreports.numbers
      have hmem : some m ∈ numbers.map some := by
        rw [← hnumbers, ← hm]
        exact List.mem_map_of_mem hd
      have hm := hbounds m (by simpa using hmem)
      omega
    · rw [Nat.add_sub_cancel, hlines, List.take_left]
      exact hreports

end ArgGuard
