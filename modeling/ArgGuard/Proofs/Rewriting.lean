import ArgGuard.Files.Tree
import ArgGuard.Proofs.Rerun

/-!
# Rewriting

What a source is rewritten to does not depend on the name of its file, and on a store only through
the packages that its lines may declare. Text that was rewritten is rewritten to itself.
-/

namespace ArgGuard

/-- One store has what another one has for the packages that a line may declare. -/
def Covers (other store : MetadataStore) : Prop :=
  ∀ line package index, LineKind.ofLine line = .package package → store package = .ok index →
    other package = .ok index

namespace Scan

variable {setting other : ScanSetting} {guards : Nat → Option Guard} {scan next last : Scan}
  {number : Nat} {line : Line} {lines : List Line} {guard : Option Guard} {y : Yield}

/-- A line advances a scan in the same way with another file name and a store that has its
package. -/
theorem Advance.of_covers (h : Advance setting scan number line guard next y)
    (hs : Covers other.store setting.store) (hc : other.compiler = setting.compiler) :
    ∃ y', Advance other scan number line guard next y' ∧ y'.text = y.text := by
  cases h with
  | quiet hquiet => exact ⟨_, .quiet hquiet, rfl⟩
  | codeEnd hr hk => exact ⟨_, .codeEnd hr hk, rfl⟩
  | package hr hk hi => exact ⟨_, .package hr hk (hs _ _ _ hk hi), rfl⟩
  | function hr hk hp => exact ⟨_, .function hr hk hp, rfl⟩
  | skipped hr hk hskip => exact ⟨_, .skipped hr hk hskip, rfl⟩
  | guarded hr hk hsub hm hg => exact ⟨_, .guarded hr hk hsub hm (hc ▸ hg), rfl⟩

/-- A run goes the same way with another file name and a store that has its packages. -/
theorem Runs.of_covers (h : Runs setting guards scan number lines last y)
    (hs : Covers other.store setting.store) (hc : other.compiler = setting.compiler) :
    ∃ y', Runs other guards scan number lines last y' ∧ y'.text = y.text := by
  induction h with
  | nil => exact ⟨_, .nil .., rfl⟩
  | cons hline hrest ih =>
    obtain ⟨y', hline', htext⟩ := hline.of_covers hs hc
    obtain ⟨ys', hrest', htexts⟩ := ih
    exact ⟨_, .cons hline' hrest', by rw [Yield.text_append, Yield.text_append, htext, htexts]⟩

end Scan

variable {setting other : ScanSetting} {store second : MetadataStore} {source target : Text}
  {y : Yield}

/-- A source is processed to the same text with another file name and a store that has its
packages. -/
theorem process_of_covers (h : process setting source = .ok y)
    (hs : Covers other.store setting.store) (hc : other.compiler = setting.compiler) :
    ∃ z, process other source = .ok z ∧ z.text = y.text := by
  obtain ⟨guards, last, y, hruns, -, rfl⟩ := runs_of_process h
  obtain ⟨y', hruns', htext⟩ := hruns.of_covers hs hc
  exact ⟨_, process_of_runs hruns', by rw [Yield.text_append, Yield.text_append, htext]⟩

/-- Whatever its file is called, a source is processed to the same text. -/
theorem process_renamed {file : Text} {compiler : SchemaCompiler}
    (h : process ⟨file, store, compiler⟩ source = .ok y) (renamed : Text) :
    ∃ z, process ⟨renamed, store, compiler⟩ source = .ok z ∧ z.text = y.text :=
  process_of_covers h (fun _ _ _ _ h => h) rfl

/-- The text of a source that is processed is processed to itself. -/
theorem exists_process_text (h : process setting source = .ok y) :
    ∃ z, process setting y.text = .ok z ∧ z.text = y.text := by
  obtain ⟨guards, last, y, hruns, -, rfl⟩ := runs_of_process h
  obtain ⟨last', y', hagain, -, htext, -⟩ := hruns.again ⟨rfl, rfl, .none⟩
  rw [← hruns.lines_text (areLines_lines source)] at hagain
  rw [Yield.text_append, List.append_nil]
  exact ⟨_, process_of_runs hagain, by rw [Yield.text_append, List.append_nil, htext]⟩

/-- What the built-in compiler makes of a source, if it is processed. -/
def rewrite? (store : MetadataStore) (source : Text) : Option Text :=
  (process ⟨[], store, Schema.compile⟩ source).toOption.map Yield.text

/-- Whatever its file is called, a source is rewritten to what it is processed to. -/
theorem rewrite?_eq_some_iff (file : Text) :
    rewrite? store source = some target ↔
      ∃ y, process ⟨file, store, Schema.compile⟩ source = .ok y ∧ y.text = target := by
  constructor
  · intro h
    obtain ⟨y, hy, rfl⟩ := exists_eq_ok_of_map_toOption h
    exact process_renamed hy file
  · rintro ⟨y, hy, rfl⟩
    obtain ⟨z, hz, htext⟩ := process_renamed hy []
    rw [rewrite?, hz, ← htext]
    rfl

/-- A store that has more rewrites no source differently. -/
theorem rewrite?_of_covers (h : Covers second store) (hr : rewrite? store source = some target) :
    rewrite? second source = some target := by
  obtain ⟨y, hy, rfl⟩ := (rewrite?_eq_some_iff []).1 hr
  exact (rewrite?_eq_some_iff []).2 (process_of_covers hy h rfl)

/-- Stores that have the same packages rewrite alike. -/
theorem rewrite?_eq_of_covers (h : Covers second store) (h' : Covers store second)
    (source : Text) : rewrite? second source = rewrite? store source :=
  Option.ext fun _ => ⟨rewrite?_of_covers h', rewrite?_of_covers h⟩

/-- Text that was rewritten is rewritten to itself. -/
theorem rewrite?_again (h : rewrite? store source = some target) :
    rewrite? store target = some target := by
  obtain ⟨y, hy, rfl⟩ := (rewrite?_eq_some_iff []).1 h
  exact (rewrite?_eq_some_iff []).2 (exists_process_text hy)

namespace Content

/-- What a file is rewritten to; it stays as it is unless it holds text that is processed. -/
def rewritten (store : MetadataStore) : Content → Content
  | text s => text ((rewrite? store s).getD s)
  | bytes bs => bytes bs

/-- Whether a file holds text that is processed. -/
def isAccepted (store : MetadataStore) : Content → Bool
  | text s => (rewrite? store s).isSome
  | bytes _ => false

/-- Stores that rewrite alike rewrite files alike. -/
theorem rewritten_congr (c : Content) (h : rewrite? second = rewrite? store) :
    c.rewritten second = c.rewritten store := by
  cases c <;> simp [rewritten, h]

/-- Stores that rewrite alike accept the same files. -/
theorem isAccepted_congr (c : Content) (h : rewrite? second = rewrite? store) :
    c.isAccepted second = c.isAccepted store := by
  cases c <;> simp [isAccepted, h]

/-- A file that is not accepted stays as it is. -/
theorem rewritten_eq_self {c : Content} (h : c.isAccepted store = false) :
    c.rewritten store = c := by
  cases c with
  | bytes bs => rfl
  | text s =>
    have hnone : rewrite? store s = none := by simpa [isAccepted] using h
    simp [rewritten, hnone]

/-- A file that was rewritten is rewritten to itself. -/
theorem rewritten_rewritten (c : Content) (store : MetadataStore) :
    (c.rewritten store).rewritten store = c.rewritten store := by
  cases c with
  | bytes bs => rfl
  | text s =>
    cases h : rewrite? store s with
    | none => simp [rewritten, h]
    | some t => simp [rewritten, h, rewrite?_again h]

/-- A file that was rewritten is accepted exactly if it was before. -/
theorem isAccepted_rewritten (c : Content) (store : MetadataStore) :
    (c.rewritten store).isAccepted store = c.isAccepted store := by
  cases c with
  | bytes bs => rfl
  | text s =>
    cases h : rewrite? store s with
    | none => simp [rewritten, isAccepted, h]
    | some t => simp [rewritten, isAccepted, h, rewrite?_again h]

end Content

end ArgGuard
