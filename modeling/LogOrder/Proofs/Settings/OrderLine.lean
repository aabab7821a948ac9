import LogOrder.Proofs.Policy.Names
import LogOrder.Proofs.Settings.Loaded
import LogOrder.Proofs.Toml.Escaped

/-!
# Settings files of one line

For every text there is a settings file that gives just this text as the order. In which way a file
writes the text makes no difference: what is loaded is the policy that the text names.

* `orderLine` is such a file, and `document?_orderLine` its document;
* `GivesText.load_iff`: what is loaded from a file that gives a text as the order;
* `mem_variants_iff`: the names that settings files know are those of the command line.
-/

namespace LogOrder.Settings

open Toml Toml.Reader

/-- A settings file of one line, which gives a text as the order. -/
def orderLine (s : String) : Bytes := Bytes.ofAscii "order = ".toList ++ (quoted s ++ [0x0a])

/-- The key of that line. -/
def lineKey : Toml.Key :=
  { name := Bytes.ofAscii "order".toList, span := { start := 0, stop := 5 } }

/-- Where the text stands in that line. -/
def lineSpan (s : String) : Toml.Span := { start := 8, stop := 8 + (quoted s).length }

section Line

variable (s : String)

theorem run_assignment :
    (assignment blanks (value depthLimit)).run { offset := 0, rest := orderLine s } =
      some (([], lineKey, lineSpan s, .text (Bytes.ofString s)),
        { offset := 8 + (quoted s).length, rest := [0x0a] }) := by
  have hkey : dottedKey.run { offset := 0, rest := orderLine s } = some (([], lineKey),
      { offset := 5, rest := 0x20 :: 0x3d :: 0x20 :: (quoted s ++ [0x0a]) }) := rfl
  have hbefore : blanks.run { offset := 5, rest := 0x20 :: 0x3d :: 0x20 :: (quoted s ++ [0x0a]) } =
      some ((), { offset := 6, rest := 0x3d :: 0x20 :: (quoted s ++ [0x0a]) }) := rfl
  have hequals : (char '=').run { offset := 6, rest := 0x3d :: 0x20 :: (quoted s ++ [0x0a]) } =
      some ((), { offset := 7, rest := 0x20 :: (quoted s ++ [0x0a]) }) := rfl
  have hafter : blanks.run { offset := 7, rest := 0x20 :: (quoted s ++ [0x0a]) } =
      some ((), { offset := 8, rest := quoted s ++ [0x0a] }) := rfl
  have hvalue : (value depthLimit).run { offset := 8, rest := quoted s ++ [0x0a] } =
      some ((lineSpan s, .text (Bytes.ofString s)),
        { offset := 8 + (quoted s).length, rest := [0x0a] }) := run_value s depthLimit nofun
  rw [assignment, run_bind_of_eq_some hkey, run_bind_of_eq_some hbefore,
    run_bind_of_eq_some hequals, run_bind_of_eq_some hafter, run_bind_of_eq_some hvalue]
  rfl

theorem run_statement? : statement?.run { offset := 0, rest := orderLine s } =
    some (some (.assign [] lineKey (lineSpan s) (.text (Bytes.ofString s))),
      { offset := 8 + (quoted s).length + 1, rest := [] }) := by
  have hgap : gap.run { offset := 0, rest := orderLine s } =
      some ((), { offset := 0, rest := orderLine s }) := rfl
  have hmore : atEnd.run { offset := 0, rest := orderLine s } =
      some (false, { offset := 0, rest := orderLine s }) := rfl
  have hheader : (sees ['[']).run { offset := 0, rest := orderLine s } =
      some (false, { offset := 0, rest := orderLine s }) := rfl
  have hend : restOfLine.run { offset := 8 + (quoted s).length, rest := [0x0a] } =
      some ((), { offset := 8 + (quoted s).length + 1, rest := [] }) := rfl
  rw [statement?, run_bind_of_eq_some hgap, run_bind_of_eq_some hmore, if_neg Bool.false_ne_true,
    run_bind_of_eq_some hheader, if_neg Bool.false_ne_true,
    run_bind_of_eq_some (run_assignment s)]
  dsimp only
  rw [pure_bind, run_bind_of_eq_some hend]
  rfl

theorem run_statement?_nil (offset : Nat) :
    statement?.run { offset, rest := [] } = some (none, { offset, rest := [] }) := rfl

/-- The line gives the text as the order, and does nothing else. -/
theorem document?_orderLine :
    document? (orderLine s) = some [(lineKey, lineSpan s, .text (Bytes.ofString s))] := by
  have hreads : Reads statement? { offset := 0, rest := orderLine s }
      [.assign [] lineKey (lineSpan s) (.text (Bytes.ofString s))]
      { offset := 8 + (quoted s).length + 1, rest := [] } := .cons (run_statement? s) .nil
  have hmany := hreads.run_many (run_statement?_nil _) (Nat.succ_le_succ (Nat.zero_le _))
  have hahead : ahead.run { offset := 0, rest := orderLine s } =
      some (orderLine s, { offset := 0, rest := orderLine s }) := rfl
  -- the line starts with a letter and not with a byte order mark
  have hmark : ¬[0xef, 0xbb, 0xbf].isPrefixOf (orderLine s) = true := Bool.false_ne_true
  rw [document?, statements, run_bind_of_eq_some hahead, if_neg hmark]
  dsimp only
  rw [hmany]
  rfl

theorem valid_orderLine : Utf8.valid (orderLine s) = true := by
  have hstart : ((Bytes.ofAscii "order = ".toList).all fun b => decide (b < 0x80)) = true := by
    decide
  refine Utf8.valid_of_forall_lt fun b hb => ?_
  rcases List.mem_append.mp hb with hkey | hb
  · exact of_decide_eq_true (List.all_eq_true.mp hstart b hkey)
  · rcases List.mem_append.mp hb with htext | hend
    · exact lt_of_mem_quoted htext
    · obtain rfl := List.mem_singleton.mp hend
      decide

end Line

/-! ## What is loaded -/

/-- The file gives the text as the order, in one way or another, and does nothing else. -/
structure GivesText (source : Bytes) (s : String) : Prop where
  valid : Utf8.valid source = true
  document : ∃ key span, key.name = orderKey ∧
    document? source = some [(key, span, .text (Bytes.ofString s))]

theorem givesText_orderLine (s : String) : GivesText (orderLine s) s where
  valid := valid_orderLine s
  document := ⟨lineKey, lineSpan s, by decide, document?_orderLine s⟩

variable {source : Bytes} {s : String} {p : Policy}

/-- The names that settings files know are those that a policy is chosen by. -/
theorem mem_variants_iff : (s, p) ∈ variants ↔ s ∈ p.choice.names := by
  cases p <;> simp [variants, Policy.choice, Choice.names]

/-- A text stands for the policy whose name it is in settings files. -/
theorem GivesText.load_iff (h : GivesText source s) (path : String) :
    load path (.ok source) = .ok { order := some p } ↔ (s, p) ∈ variants := by
  obtain ⟨hv, key, span, hkey, hdocument⟩ := h
  rw [load_eq_ok_iff]
  constructor
  · rintro ⟨-, hfound, hsets⟩
    cases hdocument.symm.trans hfound
    cases hsets with
    | order _ hdenotes =>
      cases hdenotes with
      | text hname => rwa [Bytes.toText_ofString] at hname
  · intro hname
    refine .file hv hdocument (.order hkey (.text ?_))
    rwa [Bytes.toText_ofString]

end LogOrder.Settings
