import OpenPCC.Cmdline.Proof.Parser

/-!
# Command lines that are written and parsed back

A line is a list of items, bare keys and keys with a quoted value, between runs of blanks (`Line`).
`parse` gives each key of a line the value of its last item, and has no other keys
(`parse_render`): what a value says stays inside its quotes.
-/

namespace Cmdline

open Go

/-! ## Lines -/

/-- The characters of a key. -/
def IsKeyChar (c : Char) : Prop := isSpace c = false ∧ c ≠ '=' ∧ c ≠ '"' ∧ c ≠ '\\'

instance (c : Char) : Decidable (IsKeyChar c) := inferInstanceAs (Decidable (_ ∧ _))

/-- A key that stands alone, or with a value. -/
structure Item where
  key : List Char
  value : Option (List Char)
  nonempty : key ≠ []
  plain : ∀ c ∈ key, IsKeyChar c

/-- `key` or `key="value"`. -/
def Item.render (item : Item) : List Char :=
  match item.value with
  | none => item.key
  | some value => item.key ++ ('=' :: '"' :: (value.flatMap escape ++ ['"']))

/-- The value that the item gives to its key. -/
def Item.text (item : Item) : List Char := item.value.getD []

/-- A run of spaces and tabs. -/
structure Blanks where
  chars : List Char
  blank : ∀ c ∈ chars, c = ' ' ∨ c = '\t'

/-- A command line: the items, each with the run behind it. -/
structure Line where
  lead : Blanks
  words : List (Item × Blanks)
  /-- Only the last run may be empty. -/
  spaced : ∀ word ∈ words.dropLast, word.2.chars ≠ []

def renderWords (words : List (Item × Blanks)) : List Char :=
  words.flatMap fun word => word.1.render ++ word.2.chars

def Line.render (l : Line) : List Char := l.lead.chars ++ renderWords l.words

def Line.items (l : Line) : List Item := l.words.map Prod.fst

/-- The value of the last item of a key. -/
def lastValue (items : List Item) (key : List Char) : Option (List Char) :=
  (items.reverse.find? (·.key = key)).map Item.text

/-! ## Reading a text -/

/-- The loop comes from `p` to `p'`, from any position. -/
def Reads (p : Parser) (cs : List Char) (p' : Parser) : Prop := ∀ i, p.run i (runesOf cs) = .ok p'

theorem Reads.refl (p : Parser) : Reads p [] p := fun _ => rfl

theorem Reads.append {p p' p'' : Parser} {cs ds : List Char} (h : Reads p cs p')
    (h' : Reads p' ds p'') : Reads p (cs ++ ds) p'' := by
  intro i
  obtain ⟨j, hj⟩ := run_append (h i)
  rw [runesOf, List.map_append]
  exact (hj _).trans (h' j)

theorem reads_singleton {p p' : Parser} {c : Char} (h : ∀ i, p.step i c = .ok p') :
    Reads p [c] p' := by
  intro i
  simp [runesOf, Parser.run, h]

theorem Reads.cons {p p' p'' : Parser} {c : Char} {cs : List Char} (h : ∀ i, p.step i c = .ok p')
    (h' : Reads p' cs p'') : Reads p (c :: cs) p'' :=
  (reads_singleton h).append h'

/-! ## Items -/

/-- The loop between two items. -/
def between (result : Params) : Parser := { result := result }

/-- The loop behind an item. -/
def Item.pending (item : Item) (result : Params) : Parser :=
  match item.value with
  | none => { currentKey := utf8 item.key, result := result }
  | some value =>
    { currentKey := utf8 item.key, currentValue := utf8 value, state := .value, result := result }

def Item.put (result : Params) (item : Item) : Params :=
  result.insert (utf8 item.key) (utf8 item.text)

theorem IsKeyChar.not_blank {c : Char} (h : IsKeyChar c) : ¬(c = ' ' ∨ c = '\t') := by
  have hspace := h.1
  rintro (rfl | rfl) <;> revert hspace <;> decide

theorem utf8_ne_nil {cs : List Char} (h : cs ≠ []) : utf8 cs ≠ [] := by
  intro hnil
  have hrunes := runes_utf8 cs
  rw [hnil] at hrunes
  exact h (List.map_eq_nil_iff.1 hrunes.symm)

theorem reads_key (result : Params) {cs : List Char} (hplain : ∀ c ∈ cs, IsKeyChar c)
    (key : Bytes) :
    Reads { currentKey := key, result := result } cs
      { currentKey := key ++ utf8 cs, result := result } := by
  induction cs generalizing key with
  | nil =>
    rw [utf8_nil, List.append_nil]
    exact Reads.refl _
  | cons c cs ih =>
    obtain ⟨hc, hcs⟩ := List.forall_mem_cons.1 hplain
    have hstep : ∀ i, Parser.step { currentKey := key, result := result } i c =
        .ok { currentKey := key ++ utf8 [c], result := result } := by
      intro i
      have hblank := hc.not_blank
      obtain ⟨-, heq, hquote, hbackslash⟩ := hc
      simp only [Parser.step, Bool.false_eq_true, if_false, if_neg hbackslash, if_neg hquote,
        if_neg (mt And.left heq), if_neg (mt And.left hblank), if_neg hblank, if_true]
    have hrest := ih hcs (key ++ utf8 [c])
    rw [List.append_assoc, ← utf8_append] at hrest
    exact Reads.cons hstep hrest

theorem reads_value (result : Params) {key : Bytes} (hkey : key ≠ []) (value : List Char) :
    Reads { currentKey := key, result := result } ('=' :: '"' :: (value.flatMap escape ++ ['"']))
      { currentKey := key, currentValue := utf8 value, state := .value, result := result } := by
  have hequals : ∀ i, Parser.step { currentKey := key, result := result } i '=' =
      .ok { currentKey := key, state := .value, result := result } := by
    intro i
    simp [Parser.step, hkey]
  have hquote : ∀ i, Parser.step { currentKey := key, state := .value, result := result } i '"' =
      .ok { currentKey := key, state := .valueQuoted, result := result } := fun i => rfl
  refine Reads.cons hequals (Reads.cons hquote ?_)
  exact Reads.append (fun i => run_escapes _ rfl rfl i value) (reads_singleton fun i => rfl)

theorem reads_item (result : Params) (item : Item) :
    Reads (between result) item.render (item.pending result) := by
  have hkey := reads_key result item.plain []
  rw [List.nil_append] at hkey
  unfold Item.render Item.pending
  cases item.value with
  | none => exact hkey
  | some value => exact hkey.append (reads_value result (utf8_ne_nil item.nonempty) value)

theorem reads_blanks (result : Params) {cs : List Char} (hblank : ∀ c ∈ cs, c = ' ' ∨ c = '\t') :
    Reads (between result) cs (between result) := by
  induction cs with
  | nil => exact Reads.refl _
  | cons c cs ih =>
    obtain ⟨hc, hcs⟩ := List.forall_mem_cons.1 hblank
    refine Reads.cons (fun i => ?_) (ih hcs)
    obtain rfl | rfl := hc <;> rfl

theorem step_pending (result : Params) (item : Item) (i : Nat) {c : Char}
    (hc : c = ' ' ∨ c = '\t') :
    (item.pending result).step i c = .ok (between (item.put result)) := by
  have hkey := utf8_ne_nil item.nonempty
  unfold Item.pending Item.put Item.text
  cases item.value with
  | none => obtain rfl | rfl := hc <;> simp [Parser.step, hkey, between, utf8_nil]
  | some value => obtain rfl | rfl := hc <;> simp [Parser.step, between]

theorem finish_pending (result : Params) (item : Item) :
    (item.pending result).finish = .ok (item.put result) := by
  have hkey := utf8_ne_nil item.nonempty
  unfold Item.pending Item.put Item.text
  cases item.value with
  | none => simp [Parser.finish, hkey, utf8_nil]
  | some value => simp [Parser.finish, hkey]

theorem reads_word (result : Params) (word : Item × Blanks) (hne : word.2.chars ≠ []) :
    Reads (between result) (word.1.render ++ word.2.chars) (between (word.1.put result)) := by
  refine (reads_item result word.1).append ?_
  obtain ⟨c, cs, hcs⟩ := List.exists_cons_of_ne_nil hne
  have hblank := word.2.blank
  rw [hcs] at hblank ⊢
  obtain ⟨hc, hrest⟩ := List.forall_mem_cons.1 hblank
  exact Reads.cons (fun i => step_pending result word.1 i hc) (reads_blanks _ hrest)

theorem reads_words {words : List (Item × Blanks)} (hspaced : ∀ word ∈ words, word.2.chars ≠ [])
    (result : Params) :
    Reads (between result) (renderWords words)
      (between ((words.map Prod.fst).foldl Item.put result)) := by
  induction words generalizing result with
  | nil => exact Reads.refl _
  | cons word words ih =>
    obtain ⟨hword, hwords⟩ := List.forall_mem_cons.1 hspaced
    exact (reads_word result word hword).append (ih hwords _)

/-! ## The blanks around a line -/

theorem trimSpace_surrounded {lead body trail : List Char} (hlead : ∀ c ∈ lead, isSpace c = true)
    (htrail : ∀ c ∈ trail, isSpace c = true) (hne : body ≠ [])
    (hhead : isSpace (body.head hne) = false) (hlast : isSpace (body.getLast hne) = false) :
    trimSpace (runesOf (lead ++ (body ++ trail))) = runesOf body := by
  have hleft : (runesOf (lead ++ (body ++ trail))).dropWhile (fun r => isSpace r.char) =
      runesOf body ++ runesOf trail := by
    rw [runesOf, List.map_append, List.dropWhile_append_of_pos]
    · obtain ⟨c, cs, rfl⟩ := List.exists_cons_of_ne_nil hne
      rw [List.head_cons] at hhead
      simp [runesOf, hhead]
    · simpa using hlead
  rw [trimSpace, hleft, List.rdropWhile, List.reverse_append, List.dropWhile_append_of_pos]
  · rw [← List.rdropWhile, List.rdropWhile_eq_self_iff]
    intro hbody
    simp [runesOf, hlast]
  · simpa [runesOf] using htrail

theorem isSpace_of_blank {c : Char} (h : c = ' ' ∨ c = '\t') : isSpace c = true := by
  obtain rfl | rfl := h <;> decide

theorem Item.render_ne_nil (item : Item) : item.render ≠ [] := by
  unfold Item.render
  split
  · exact item.nonempty
  · simp [item.nonempty]

theorem Item.isSpace_head (item : Item) :
    isSpace (item.render.head item.render_ne_nil) = false := by
  obtain ⟨key, value, nonempty, plain⟩ := item
  have hhead := (plain _ (List.head_mem nonempty)).1
  cases value with
  | none => exact hhead
  | some value =>
    simp only [Item.render, List.head_append_of_ne_nil nonempty]
    exact hhead

theorem Item.isSpace_getLast (item : Item) :
    isSpace (item.render.getLast item.render_ne_nil) = false := by
  obtain ⟨key, value, nonempty, plain⟩ := item
  cases value with
  | none => exact (plain _ (List.getLast_mem nonempty)).1
  | some value =>
    have hsplit : key ++ ('=' :: '"' :: (value.flatMap escape ++ ['"'])) =
        (key ++ ('=' :: '"' :: value.flatMap escape)) ++ ['"'] := by simp
    simp only [Item.render, hsplit, List.getLast_append_singleton]
    decide

theorem isSpace_head_words (words : List (Item × Blanks)) (last : Item)
    (hne : renderWords words ++ last.render ≠ []) :
    isSpace ((renderWords words ++ last.render).head hne) = false := by
  cases words with
  | nil => exact last.isSpace_head
  | cons word words =>
    have hrender : renderWords (word :: words) ++ last.render =
        word.1.render ++ (word.2.chars ++ renderWords words ++ last.render) := by
      simp [renderWords]
    simp only [hrender, List.head_append_of_ne_nil word.1.render_ne_nil]
    exact word.1.isSpace_head

/-! ## The map -/

theorem utf8_injective : Function.Injective utf8 := by
  intro cs ds h
  have hrunes := congrArg (fun s => (runes s).map Rune.char) h
  simpa only [runes_utf8, List.map_map, Function.comp_def, List.map_id'] using hrunes

/-- Later items override earlier ones of the same key, and no others. -/
theorem lookup_foldl_put (items : List Item) (key : List Char) :
    (items.foldl Item.put ∅).lookup (utf8 key) = (lastValue items key).map utf8 := by
  induction items using List.reverseRecOn with
  | nil => rfl
  | append_singleton items item ih =>
    rw [List.foldl_append, List.foldl_cons, List.foldl_nil, Item.put]
    unfold lastValue at ih ⊢
    rw [List.reverse_append, List.reverse_singleton, List.singleton_append, List.find?_cons]
    by_cases hkey : item.key = key
    · subst hkey
      simp [AList.lookup_insert]
    · have hne : utf8 key ≠ utf8 item.key := fun h => hkey (utf8_injective h).symm
      simp [AList.lookup_insert_ne hne, ih, hkey]

theorem mem_foldl_put (items : List Item) (k : Bytes) (h : k ∈ items.foldl Item.put ∅) :
    ∃ item ∈ items, k = utf8 item.key := by
  induction items using List.reverseRecOn with
  | nil => exact absurd h (AList.notMem_empty k)
  | append_singleton items item ih =>
    rw [List.foldl_append, List.foldl_cons, List.foldl_nil, Item.put, AList.mem_insert] at h
    obtain rfl | hmem := h
    · exact ⟨item, by simp, rfl⟩
    · obtain ⟨item', hitem', hk⟩ := ih hmem
      exact ⟨item', List.mem_append_left _ hitem', hk⟩

theorem parse_eq_foldl (l : Line) :
    parse (utf8 l.render) = .ok (l.items.foldl Item.put ∅) := by
  obtain ⟨lead, words, spaced⟩ := l
  have hlead : ∀ c ∈ lead.chars, isSpace c = true := fun c hc => isSpace_of_blank (lead.blank c hc)
  have hruns : ∀ cs, runes (utf8 cs) = runesOf cs := runes_utf8
  obtain rfl | ⟨words, word, rfl⟩ := List.eq_nil_or_concat' words
  · -- nothing but blanks
    have htrim : trimSpace (runesOf lead.chars) = [] := by
      have hnil : (runesOf lead.chars).dropWhile (fun r => isSpace r.char) = [] := by
        simpa [runesOf, List.dropWhile_eq_nil_iff] using hlead
      rw [trimSpace, hnil, List.rdropWhile_nil]
    have hrender : Line.render ⟨lead, [], spaced⟩ = lead.chars := by
      simp [Line.render, renderWords]
    rw [parse, hrender, hruns, htrim]
    rfl
  · have hspaced := spaced
    rw [List.dropLast_concat] at hspaced
    have hrender : Line.render ⟨lead, words ++ [word], spaced⟩ =
        lead.chars ++ ((renderWords words ++ word.1.render) ++ word.2.chars) := by
      simp [Line.render, renderWords]
    have hne : renderWords words ++ word.1.render ≠ [] := by
      simp [word.1.render_ne_nil]
    have htrim := trimSpace_surrounded hlead
      (fun c hc => isSpace_of_blank (word.2.blank c hc)) hne
      (isSpace_head_words words word.1 hne)
      (by rw [List.getLast_append_of_ne_nil hne word.1.render_ne_nil]
          exact word.1.isSpace_getLast)
    have hread := (reads_words hspaced ∅).append (reads_item _ word.1)
    rw [parse, hrender, hruns, htrim, show ({} : Parser) = between ∅ from rfl, hread 0]
    simp only [finish_pending, Line.items, List.map_append, List.map_cons, List.map_nil,
      List.foldl_append, List.foldl_cons, List.foldl_nil]

/-- A line is parsed into the map that gives each key the value of its last item. -/
theorem parse_render (l : Line) :
    ∃ m, parse (utf8 l.render) = .ok m ∧
      (∀ key, m.lookup (utf8 key) = (lastValue l.items key).map utf8) ∧
      ∀ k ∈ m, ∃ item ∈ l.items, k = utf8 item.key :=
  ⟨_, parse_eq_foldl l, lookup_foldl_put l.items, mem_foldl_put l.items⟩

example :
    (parse (utf8 "confsec.root=\"a\" note=\"\\\" confsec.root=b\"".toList)).map
        (·.lookup (utf8 "confsec.root".toList)) = .ok (some (utf8 "a".toList)) := by
  decide

end Cmdline
