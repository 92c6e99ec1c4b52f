import FabEdit.Config
import FabEdit.Proofs.LineCore
import FabEdit.Proofs.CanonicalSets

/-!
# Spellings of a configuration

A host may spell one configuration in many ways: its settings come in any order and among others
that mean nothing here, a listing is a list in any order and with repetitions, or a text of words
between blanks, a continuation rule is a table or ready made, and what has its default may be left
out. `Config.Spells` says which tables spell a configuration, without reference to how they are
read. Reading gives that configuration back from every spelling.

Shape of the argument:

* What one field gives is stated once, for every field of every table (`Config.fieldIn_eq_ok`): a
  field that is there is read, and one that is missing has the value for that case.
* A text spells a listing if its words, whatever blanks stand between them, are those of the listing
  (`Text.Spaced.words_eq`); a list spells it if its items are.
* From there reading goes up through listings, rules and tables of rules to the whole configuration,
  with one lemma for each level.
-/

namespace FabEdit

/-! ## Words between blanks -/

/-- A text in which some words stand between blanks: nothing or blanks in front of the first and
behind the last, and at least one blank between two. -/
inductive Text.Spaced : List Text → Text → Prop
  | blanks {a : Text} (ha : ∀ c ∈ a, isBlank c = true) : Spaced [] a
  | word {a w rest : Text} {ws : List Text} (ha : ∀ c ∈ a, isBlank c = true) (hne : w ≠ [])
      (hw : ∀ c ∈ w, isBlank c = false) (hrest : ∀ c ∈ rest.head?, isBlank c = true)
      (h : Spaced ws rest) : Spaced (w :: ws) (a ++ (w ++ rest))

namespace Text

theorem Spaced.words_eq {ws : List Text} {t : Text} (h : Spaced ws t) : t.words = ws := by
  induction h with
  | blanks ha => exact words_of_content_eq_nil (content_eq_nil_iff.2 ha)
  | word ha hne hw hrest _ ih =>
    rw [words_blank_append ha, words_append_of_head?_isBlank hne hw hrest, ih]

/-- Every text is made of its words and the blanks between them. The induction is on the length, as
what stands behind the first word is shorter than the text. -/
theorem spaced_words (t : Text) : Spaced t.words t := by
  induction hn : t.length using Nat.strong_induction_on generalizing t with
  | _ n ih =>
    have hlead : ∀ c ∈ t.lead, isBlank c = true := fun c hc => isBlank_of_mem_lead hc
    by_cases hblank : t.content = []
    · rw [words_of_content_eq_nil hblank]
      exact .blanks (content_eq_nil_iff.1 hblank)
    · have hne : t.firstWord ≠ [] := mt firstWord_eq_nil_iff.1 hblank
      have hcut : t.lead ++ (t.firstWord ++ t.behindFirst) = t := by
        rw [firstWord_append_behindFirst, lead_append_content]
      have hshorter : t.behindFirst.length < n := by
        have hlength := congrArg List.length hcut
        have hpos := List.length_pos_iff.2 hne
        rw [List.length_append, List.length_append] at hlength
        omega
      have hspaced := Spaced.word hlead hne (fun c hc => isBlank_of_mem_firstWord hc)
        (fun c hc => isBlank_of_head?_behindFirst hc) (ih _ hshorter _ rfl)
      rwa [hcut, ← words_of_content_ne_nil hblank] at hspaced

end Text

/-! ## Spellings -/

/-- The setting that lists a member of a listing. -/
def Item.toSetting : Item → Setting
  | .word w => .text w
  | .number (.flag b) => .flag b
  | .number (.int n) => .int n
  | .number (.real x) => .real x
  | .nothing => .null

namespace Item

theorem item?_toSetting (i : Item) : i.toSetting.item? = some i := by
  cases i with
  | word w => rfl
  | number n => cases n <;> rfl
  | nothing => rfl

theorem mapM_item?_toSetting (items : List Item) :
    (items.map toSetting).mapM Setting.item? = some items := by
  induction items with
  | nil => rfl
  | cons i items ih =>
    rw [List.map_cons, List.mapM_cons, item?_toSetting, ih]
    rfl

end Item

/-- The settings that spell a listing. -/
inductive Listing.Spells (l : Listing) : Setting → Prop
  /-- A list of the members, in any order and with any repetitions. -/
  | list {items : List Item} (h : ∀ i, i ∈ items ↔ i ∈ l.members) :
      Spells l (.list (items.map Item.toSetting))
  /-- A text of the members, if these are words. -/
  | text {ws : List Text} {t : Text} (hspaced : t.Spaced ws)
      (h : ∀ i, i ∈ ws.map Item.word ↔ i ∈ l.members) : Spells l (.text t)

/-- What a table says under a name: a setting that will do, or nothing if nothing need be said. -/
def FieldSpells (fields : List (Text × Setting)) (name : String) (P : Setting → Prop)
    (dispensable : Prop) : Prop :=
  (∃ s, (name.toList, s) ∈ fields ∧ P s) ∨ (dispensable ∧ name.toList ∉ fields.map Prod.fst)

/-- The settings that spell a continuation rule. -/
inductive Continuation.Spells (r : Continuation) : Setting → Prop
  | rule : Spells r (.rule r)
  /-- A table with a listing under each of three names, or none if the listing is empty, and with
  anything under other names. -/
  | table {fields : List (Text × Setting)} (names : (fields.map Prod.fst).Nodup)
      (peers : FieldSpells fields "peers" r.peers.Spells (r.peers = .empty))
      (stops : FieldSpells fields "stops" r.stops.Spells (r.stops = .empty))
      (terminal : FieldSpells fields "terminal" r.terminal.Spells (r.terminal = .empty)) :
      Spells r (.table fields)

/-- The settings that spell the rules of all keywords: tables with a spelling of each rule under its
keyword, in any order. -/
inductive RulesSpell (m : Continuations) : Setting → Prop
  | table {fields : List (Text × Setting)} {entries : List (Text × Continuation)}
      (order : entries.Perm m.entries)
      (rules : List.Forall₂ (fun f e => f.1 = e.1 ∧ e.2.Spells f.2) fields entries) :
      RulesSpell m (.table fields)

/-- The tables that spell a configuration. No name stands twice in a table. -/
structure Config.Spells (c : Config) (fields : List (Text × Setting)) : Prop where
  names : (fields.map Prod.fst).Nodup
  indentWidth : FieldSpells fields "indent_width" (· = c.indentWidth.toSetting)
    (c.indentWidth = default.indentWidth)
  tabWidth : FieldSpells fields "tab_width" (· = c.tabWidth.toSetting)
    (c.tabWidth = default.tabWidth)
  useTabs : FieldSpells fields "use_tabs" (· = c.useTabs) (c.useTabs = default.useTabs)
  openers : FieldSpells fields "block_openers" c.openers.Spells (c.openers = default.openers)
  continuations : FieldSpells fields "continuations" (RulesSpell c.continuations)
    (c.continuations = default.continuations)

/-! ## Fields -/

theorem FieldSpells.of_getElem? {fields : List (Text × Setting)} {name : String} {s : Setting}
    {P : Setting → Prop} {dispensable : Prop} (n : Nat)
    (h : fields[n]? = some (name.toList, s)) (hs : P s) :
    FieldSpells fields name P dispensable :=
  .inl ⟨s, List.mem_of_getElem? h, hs⟩

theorem Setting.lookup?_of_mem {fields : List (Text × Setting)} {name : String} {s : Setting}
    (names : (fields.map Prod.fst).Nodup) (h : (name.toList, s) ∈ fields) :
    lookup? fields name = some s := by
  cases hfind : fields.find? fun f => decide (f.1 = name.toList) with
  | none =>
    have hnone := List.find?_eq_none.1 hfind _ h
    simp at hnone
  | some f =>
    have hname : f.1 = name.toList := by simpa using List.find?_some hfind
    have hf : f = (name.toList, s) :=
      List.inj_on_of_nodup_map names (List.mem_of_find?_eq_some hfind) h hname
    rw [lookup?, hfind, hf]
    rfl

theorem Setting.lookup?_of_not_mem {fields : List (Text × Setting)} {name : String}
    (h : name.toList ∉ fields.map Prod.fst) : lookup? fields name = none := by
  have hfind : (fields.find? fun f => decide (f.1 = name.toList)) = none := by
    refine List.find?_eq_none.2 fun f hf hname => h ?_
    exact List.mem_map.2 ⟨f, hf, of_decide_eq_true hname⟩
  rw [lookup?, hfind]
  rfl

namespace Config

/-- A field gives a value if every spelling of the value is read as such. -/
theorem fieldIn_eq_ok {α : Type} {fields : List (Text × Setting)} {name : String} {a missing : α}
    {read : Setting → Except Fault α} {P : Setting → Prop} (names : (fields.map Prod.fst).Nodup)
    (h : FieldSpells fields name P (a = missing)) (hread : ∀ s, P s → read s = .ok a) :
    fieldIn fields name missing read = .ok a := by
  rcases h with ⟨s, hs, hP⟩ | ⟨rfl, hnone⟩
  · rw [fieldIn, Setting.lookup?_of_mem names hs]
    exact hread s hP
  · rw [fieldIn, Setting.lookup?_of_not_mem hnone]

/-! ## Reading -/

theorem widthOf_toSetting (field : WidthField) (w : Width) : widthOf field w.toSetting = .ok w := by
  rw [widthOf, Width.ofSetting?_toSetting]

/-- A listing is read from every spelling of it. -/
theorem listingOf_of_spells {l : Listing} {s : Setting} (h : l.Spells s) :
    listingOf s = .ok l := by
  have hitems : ∃ items, s.items? = some items ∧ ∀ i, i ∈ items ↔ i ∈ l.members := by
    cases h with
    | @list items h => exact ⟨items, Item.mapM_item?_toSetting items, h⟩
    | @text ws t hspaced h => exact ⟨ws.map .word, by rw [Setting.items?, hspaced.words_eq], h⟩
  obtain ⟨items, hs, hmem⟩ := hitems
  rw [listingOf, Setting.listing?, hs, Option.map_some, Listing.ofList_eq_of_mem_iff hmem]

/-- A rule is read from every spelling of it. -/
theorem ruleOf_of_spells {r : Continuation} {s : Setting} (h : r.Spells s) (keyword : Text) :
    ruleOf keyword s = .ok r := by
  cases h with
  | rule => rfl
  | table names peers stops terminal =>
    rw [ruleOf, listingIn, listingIn, listingIn,
      fieldIn_eq_ok names peers fun s => listingOf_of_spells,
      fieldIn_eq_ok names stops fun s => listingOf_of_spells,
      fieldIn_eq_ok names terminal fun s => listingOf_of_spells]
    rfl

/-- The rules of all keywords are read from every spelling of them. -/
theorem rulesOf_of_spell {m : Continuations} {s : Setting} (h : RulesSpell m s) :
    rulesOf s = .ok m := by
  obtain @⟨fields, entries, order, rules⟩ := h
  have hentries : fields.mapM (fun f => (ruleOf f.1 f.2).map fun r => (f.1, r)) = .ok entries := by
    clear order
    induction rules with
    | nil => rfl
    | @cons f e fields entries hrule _ ih =>
      rw [List.mapM_cons, ruleOf_of_spells hrule.2, ih, hrule.1]
      rfl
  rw [rulesOf, hentries, ← WordMap.ofList_eq_of_perm order]
  rfl

/-- A configuration is read from every table that spells it. -/
theorem ofFields_of_spells {c : Config} {fields : List (Text × Setting)} (h : c.Spells fields) :
    ofFields fields = .ok c := by
  have hindent : widthIn fields .indentWidth default.indentWidth = .ok c.indentWidth :=
    fieldIn_eq_ok h.names h.indentWidth fun s hs => hs ▸ widthOf_toSetting _ _
  have htab : widthIn fields .tabWidth default.tabWidth = .ok c.tabWidth :=
    fieldIn_eq_ok h.names h.tabWidth fun s hs => hs ▸ widthOf_toSetting _ _
  rw [ofFields, fieldIn_eq_ok h.names h.openers fun s => listingOf_of_spells,
    fieldIn_eq_ok h.names h.continuations fun s => rulesOf_of_spell, hindent, htab,
    fieldIn_eq_ok h.names h.useTabs fun s hs => congrArg Except.ok hs]
  rfl

/-! ## The fields of a configuration -/

/-- The fields of a configuration, each as it is kept. -/
def toFields (c : Config) : List (Text × Setting) :=
  [("indent_width".toList, c.indentWidth.toSetting), ("tab_width".toList, c.tabWidth.toSetting),
   ("use_tabs".toList, c.useTabs),
   ("block_openers".toList, .list (c.openers.members.map Item.toSetting)),
   ("continuations".toList, c.rulesSetting)]

theorem rulesSpell_rulesSetting (c : Config) : RulesSpell c.continuations c.rulesSetting := by
  refine .table (List.Perm.refl _) ?_
  rw [List.forall₂_map_left_iff, List.forall₂_same]
  exact fun e _ => ⟨rfl, .rule⟩

/-- A configuration is spelled by its own fields. -/
theorem spells_toFields (c : Config) : c.Spells c.toFields where
  names := by
    have hnames : c.toFields.map Prod.fst = ["indent_width", "tab_width", "use_tabs",
      "block_openers", "continuations"].map String.toList := rfl
    rw [hnames]
    decide
  indentWidth := .of_getElem? 0 rfl rfl
  tabWidth := .of_getElem? 1 rfl rfl
  useTabs := .of_getElem? 2 rfl rfl
  openers := .of_getElem? 3 rfl (.list fun _ => Iff.rfl)
  continuations := .of_getElem? 4 rfl (rulesSpell_rulesSetting c)

/-- How a configuration is spelled does not matter. Every table that spells it is read as that
configuration, whatever the order of its settings, whatever other settings it has, however its
listings and its rules are written. A configuration is spelled by its own fields, so it is read back
from them. -/
theorem ofSetting_reads_spellings (c : Config) :
    (∀ fields, c.Spells fields → ofSetting (.table fields) = .ok c) ∧
    c.Spells c.toFields ∧ ofSetting (.table c.toFields) = .ok c :=
  ⟨fun _ h => ofFields_of_spells h, spells_toFields c, ofFields_of_spells (spells_toFields c)⟩

/-- A rule for `else` that nothing stops. -/
private def elseOnly : Continuation :=
  ⟨Vocabulary.listing ["if", "else"], .empty, Vocabulary.listing ["else"]⟩

/-- A configuration with two rules and the usual tab stops. -/
private def motley : Config where
  indentWidth := .yes
  tabWidth := default.tabWidth
  useTabs := .text "yes".toList
  openers := Vocabulary.listing ["else", "fn", "if"]
  continuations := .ofList [("case".toList, Vocabulary.branchRule), ("else".toList, elseOnly)]

/-- The fields of a table for `elseOnly`: no stops, the peers as a list, the terminal as a text. -/
private def elseFields : List (Text × Setting) :=
  [("terminal".toList, .text " else\n".toList), ("why".toList, .int 3),
   ("peers".toList,
    .list ([.word "else".toList, .word "if".toList, .word "else".toList].map Item.toSetting))]

/-- A table for `motley` without the tab width, with the openers as a text and with one rule ready
made. -/
private def motleyFields : List (Text × Setting) :=
  [("note".toList, .list [.null]),
   ("continuations".toList,
    .table [("else".toList, .table elseFields), ("case".toList, .rule Vocabulary.branchRule)]),
   ("block_openers".toList, .text "\tif  else\u00a0fn if ".toList),
   ("use_tabs".toList, .text "yes".toList), ("indent_width".toList, .flag true)]

private theorem spells_text {l : Listing} {t : Text} (h : ∀ w ∈ t.words, .word w ∈ l.members)
    (h' : ∀ i ∈ l.members, i ∈ t.words.map Item.word) : l.Spells (.text t) := by
  refine .text (Text.spaced_words t) fun i => ⟨fun hi => ?_, h' i⟩
  obtain ⟨w, hw, rfl⟩ := List.mem_map.1 hi
  exact h w hw

private theorem spells_elseFields : elseOnly.Spells (.table elseFields) := by
  refine .table (by decide) (.of_getElem? 2 rfl (.list fun i => ⟨?_, ?_⟩)) (.inr ⟨rfl, by decide⟩)
    (.of_getElem? 0 rfl (spells_text (by decide) (by decide)))
  · revert i
    decide
  · revert i
    decide

private theorem spells_motleyFields : motley.Spells motleyFields where
  names := by decide
  indentWidth := .of_getElem? 4 rfl rfl
  tabWidth := .inr ⟨rfl, by decide⟩
  useTabs := .of_getElem? 3 rfl rfl
  openers := .of_getElem? 2 rfl (spells_text (by decide) (by decide))
  continuations := by
    refine .of_getElem? 1 rfl (.table (List.Perm.swap _ _ []) ?_)
    exact .cons ⟨rfl, spells_elseFields⟩ (.cons ⟨rfl, .rule⟩ .nil)

/-- The motley table is read as the configuration that it spells. -/
theorem ofSetting_motley :
    motley.Spells motleyFields ∧ ofSetting (.table motleyFields) = .ok motley :=
  ⟨spells_motleyFields, (ofSetting_reads_spellings motley).1 motleyFields spells_motleyFields⟩

end Config

end FabEdit
