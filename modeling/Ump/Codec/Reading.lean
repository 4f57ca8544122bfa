import Ump.Codec.Reader

/-!
# Texts and trees

The reader is sound and complete: it reads the text that a well-formed tree prints, it reads
nothing else but blanks around it, and it reads the tree back.
-/

namespace Ump.Codec

/-!
## Well-formed trees

The blank behind an opening bracket belongs to the first item, so what the scanner reads is not
the same at every node.
-/

/-- What the scanner reads at one node. The blank behind an opening bracket belongs to the
first item, if there is one. -/
def wellFormedHere : Tree -> Bool
  | .word _ => true
  | .number literal => isNumberLiteral literal
  | .string pieces => pieces.all Piece.wellFormed
  | .array blank items =>
      isBlank blank && (items.isEmpty || blank.isEmpty) &&
        items.all (fun item => isBlank item.1 && isBlank item.2.2)
  | .object blank members =>
      isBlank blank && (members.isEmpty || blank.isEmpty) && members.all (fun member =>
        isBlank member.1 && member.2.1.all Piece.wellFormed && isBlank member.2.2.1 &&
          isBlank member.2.2.2.1 && isBlank member.2.2.2.2.2)

abbrev Item := Blank × Tree × Blank

abbrev Member := Blank × List Piece × Blank × Blank × Tree × Blank

def wellFormedItem (item : Item) : Bool :=
  isBlank item.1 && isBlank item.2.2 && everywhere wellFormedHere item.2.1

def wellFormedMember (member : Member) : Bool :=
  isBlank member.1 && member.2.1.all Piece.wellFormed && isBlank member.2.2.1 &&
    isBlank member.2.2.2.1 && isBlank member.2.2.2.2.2 &&
      everywhere wellFormedHere member.2.2.2.2.1

theorem everywhereItems_eq (rule : Tree -> Bool) (items : List Item) :
    everywhereItems rule items = items.all (fun item => everywhere rule item.2.1) := by
  induction items with
  | nil => rfl
  | cons item rest ih =>
      rcases item with ⟨before, tree, after⟩
      rw [everywhereItems, ih, List.all_cons]

theorem everywhereMembers_eq (rule : Tree -> Bool) (members : List Member) :
    everywhereMembers rule members =
      members.all (fun member => everywhere rule member.2.2.2.2.1) := by
  induction members with
  | nil => rfl
  | cons member rest ih =>
      rcases member with ⟨before, name, left, right, tree, after⟩
      rw [everywhereMembers, ih, List.all_cons]

theorem wellFormed_array {blank : Blank} {items : List Item} :
    everywhere wellFormedHere (.array blank items) = true <->
      isBlank blank = true ∧ (items = [] ∨ blank = []) ∧ items.all wellFormedItem = true := by
  rw [everywhere, everywhereItems_eq, wellFormedHere]
  simp only [wellFormedItem, List.all_eq_true, Bool.and_eq_true, Bool.or_eq_true,
    List.isEmpty_iff, imp_and, forall_and]
  tauto

theorem wellFormed_object {blank : Blank} {members : List Member} :
    everywhere wellFormedHere (.object blank members) = true <->
      isBlank blank = true ∧ (members = [] ∨ blank = []) ∧
        members.all wellFormedMember = true := by
  rw [everywhere, everywhereMembers_eq, wellFormedHere]
  simp only [wellFormedMember, List.all_eq_true, Bool.and_eq_true, Bool.or_eq_true,
    List.isEmpty_iff, imp_and, forall_and]
  tauto

/-!
## What has been read

By induction on the fuel: whatever is read is a well-formed tree, and its text stands before the
rest.
-/

theorem text_of_skipBlank {text rest : Points} {blank : Blank}
    (h : skipBlank text = (blank, rest)) :
    text = ofText blank ++ rest ∧ isBlank blank = true := by
  obtain ⟨htext, hblank, _⟩ := spanChars_spec isBlankChar text
  unfold skipBlank at h
  rw [h] at htext hblank
  exact ⟨htext, hblank⟩

theorem text_of_readScalar {text rest : Points} {tree : Tree}
    (h : readScalar text = some (tree, rest)) :
    text = tree.print ++ rest ∧ everywhere wellFormedHere tree = true := by
  unfold readScalar at h
  cases hword : readWord text with
  | some read =>
      rw [hword] at h
      cases h
      exact ⟨text_of_readWord hword, rfl⟩
  | none =>
      rw [hword] at h
      dsimp only at h
      split_ifs at h with hliteral
      cases h
      exact ⟨(spanChars_spec isNumberChar text).1, hliteral⟩

/-- The items of a text, up to the closing bracket. -/
def ItemsOf (before : Blank) (text : Points) (items : List Item) (rest : Points) : Prop :=
  items ≠ [] ∧ ofText before ++ text = commaSeparated (printItems items) ++ .char ']' :: rest ∧
    (isBlank before = true -> items.all wellFormedItem = true)

def MembersOf (before : Blank) (text : Points) (members : List Member) (rest : Points) : Prop :=
  members ≠ [] ∧
    ofText before ++ text = commaSeparated (printMembers members) ++ .char '\x7d' :: rest ∧
    (isBlank before = true -> members.all wellFormedMember = true)

theorem commaSeparated_cons {first : Points} {rest : List Points} (h : rest ≠ []) :
    commaSeparated (first :: rest) = first ++ .char ',' :: commaSeparated rest := by
  cases rest with
  | nil => exact absurd rfl h
  | cons next others => simp [commaSeparated]

theorem printItems_ne_nil {items : List Item} (h : items ≠ []) : printItems items ≠ [] := by
  cases items with
  | nil => exact absurd rfl h
  | cons item rest => exact List.cons_ne_nil _ _

theorem printMembers_ne_nil {members : List Member} (h : members ≠ []) :
    printMembers members ≠ [] := by
  cases members with
  | nil => exact absurd rfl h
  | cons member rest => exact List.cons_ne_nil _ _

/-- What the reader returns with some fuel is in its text. -/
structure Reads (fuel : Nat) : Prop where
  tree : forall {text rest : Points} {tree : Tree}, readTree fuel text = some (tree, rest) ->
    text = tree.print ++ rest ∧ everywhere wellFormedHere tree = true
  items : forall {before : Blank} {text rest : Points} {items : List Item},
    readItems fuel before text = some (items, rest) -> ItemsOf before text items rest
  members : forall {before : Blank} {text rest : Points} {members : List Member},
    readMembers fuel before text = some (members, rest) -> MembersOf before text members rest

theorem Reads.readItems_succ {fuel : Nat} (h : Reads fuel) {before : Blank} {text rest : Points}
    {items : List Item} (hread : readItems (fuel + 1) before text = some (items, rest)) :
    ItemsOf before text items rest := by
  rw [readItems] at hread
  obtain ⟨⟨tree, left⟩, htree, hread⟩ := Option.bind_eq_some_iff.mp hread
  rcases hskip : skipBlank left with ⟨after, next⟩
  obtain ⟨htext, hwell⟩ := h.tree htree
  obtain ⟨hgap, hafter⟩ := text_of_skipBlank hskip
  have hitem : isBlank before = true -> wellFormedItem (before, tree, after) = true := by
    intro hbefore
    simp [wellFormedItem, hbefore, hafter, hwell]
  dsimp only at hread
  rw [hskip] at hread
  dsimp only at hread
  cases hclose : expect ']' next with
  | some others =>
      rw [hclose] at hread
      cases hread
      refine ⟨List.cons_ne_nil _ _, ?_, fun hbefore => ?_⟩
      · rw [htext, hgap, expect_eq_some.mp hclose]
        simp [printItems, commaSeparated]
      · rw [List.all_cons, hitem hbefore]
        rfl
  | none =>
      rw [hclose] at hread
      obtain ⟨comma, hcomma, hread⟩ := Option.bind_eq_some_iff.mp hread
      rcases hbehind : skipBlank comma with ⟨blank, following⟩
      rw [hbehind] at hread
      dsimp only at hread
      obtain ⟨⟨others, last⟩, hothers, hread⟩ := Option.bind_eq_some_iff.mp hread
      cases hread
      obtain ⟨hne, hrest, hall⟩ := h.items hothers
      obtain ⟨hnext, hblank⟩ := text_of_skipBlank hbehind
      refine ⟨List.cons_ne_nil _ _, ?_, fun hbefore => ?_⟩
      · rw [printItems, commaSeparated_cons (printItems_ne_nil hne), htext, hgap,
          expect_eq_some.mp hcomma, hnext, hrest]
        simp
      · rw [List.all_cons, hitem hbefore, hall hblank]
        rfl

theorem Reads.readMembers_succ {fuel : Nat} (h : Reads fuel) {before : Blank}
    {text rest : Points} {members : List Member}
    (hread : readMembers (fuel + 1) before text = some (members, rest)) :
    MembersOf before text members rest := by
  rw [readMembers] at hread
  obtain ⟨⟨name, behind⟩, hname, hread⟩ := Option.bind_eq_some_iff.mp hread
  rcases hskipName : skipBlank behind with ⟨left, sign⟩
  dsimp only at hread
  rw [hskipName] at hread
  dsimp only at hread
  obtain ⟨colon, hcolon, hread⟩ := Option.bind_eq_some_iff.mp hread
  rcases hskipColon : skipBlank colon with ⟨right, valueText⟩
  rw [hskipColon] at hread
  dsimp only at hread
  obtain ⟨⟨tree, behindTree⟩, htree, hread⟩ := Option.bind_eq_some_iff.mp hread
  rcases hskip : skipBlank behindTree with ⟨after, next⟩
  dsimp only at hread
  rw [hskip] at hread
  dsimp only at hread
  obtain ⟨hquoted, hpieces⟩ := text_of_readString hname
  obtain ⟨hleft, hleftBlank⟩ := text_of_skipBlank hskipName
  obtain ⟨hright, hrightBlank⟩ := text_of_skipBlank hskipColon
  obtain ⟨htext, hwell⟩ := h.tree htree
  obtain ⟨hgap, hafter⟩ := text_of_skipBlank hskip
  have hmember : isBlank before = true ->
      wellFormedMember (before, name, left, right, tree, after) = true := by
    intro hbefore
    simp [wellFormedMember, hbefore, hpieces, hleftBlank, hrightBlank, hafter, hwell]
  have hstart : text = printQuoted name ++ ofText left ++ .char ':' :: ofText right ++
      tree.print ++ behindTree := by
    rw [hquoted, hleft, expect_eq_some.mp hcolon, hright, htext]
    simp
  cases hclose : expect '\x7d' next with
  | some others =>
      rw [hclose] at hread
      cases hread
      refine ⟨List.cons_ne_nil _ _, ?_, fun hbefore => ?_⟩
      · rw [hstart, hgap, expect_eq_some.mp hclose]
        simp [printMembers, commaSeparated]
      · rw [List.all_cons, hmember hbefore]
        rfl
  | none =>
      rw [hclose] at hread
      obtain ⟨comma, hcomma, hread⟩ := Option.bind_eq_some_iff.mp hread
      rcases hbehind : skipBlank comma with ⟨blank, following⟩
      rw [hbehind] at hread
      dsimp only at hread
      obtain ⟨⟨others, last⟩, hothers, hread⟩ := Option.bind_eq_some_iff.mp hread
      cases hread
      obtain ⟨hne, hrest, hall⟩ := h.members hothers
      obtain ⟨hnext, hblank⟩ := text_of_skipBlank hbehind
      refine ⟨List.cons_ne_nil _ _, ?_, fun hbefore => ?_⟩
      · rw [printMembers, commaSeparated_cons (printMembers_ne_nil hne), hstart, hgap,
          expect_eq_some.mp hcomma, hnext, hrest]
        simp
      · rw [List.all_cons, hmember hbefore, hall hblank]
        rfl

theorem Reads.readTree_succ {fuel : Nat} (h : Reads fuel) {text rest : Points} {tree : Tree}
    (hread : readTree (fuel + 1) text = some (tree, rest)) :
    text = tree.print ++ rest ∧ everywhere wellFormedHere tree = true := by
  rw [readTree] at hread
  cases hstring : readString text with
  | some read =>
      rw [hstring] at hread
      cases hread
      exact text_of_readString hstring
  | none =>
  rw [hstring] at hread
  dsimp only at hread
  cases harray : expect '[' text with
  | some inside =>
      rcases hskip : skipBlank inside with ⟨blank, next⟩
      obtain ⟨hgap, hblank⟩ := text_of_skipBlank hskip
      rw [harray] at hread
      dsimp only at hread
      rw [hskip] at hread
      dsimp only at hread
      cases hclose : expect ']' next with
      | some others =>
          rw [hclose] at hread
          cases hread
          refine ⟨?_, wellFormed_array.mpr ⟨hblank, Or.inl rfl, rfl⟩⟩
          rw [expect_eq_some.mp harray, hgap, expect_eq_some.mp hclose]
          simp [Tree.print, printItems, commaSeparated]
      | none =>
          rw [hclose] at hread
          obtain ⟨⟨items, last⟩, hitems, heq⟩ := Option.map_eq_some_iff.mp hread
          cases heq
          obtain ⟨_, hrest, hall⟩ := h.items hitems
          refine ⟨?_, wellFormed_array.mpr ⟨rfl, Or.inr rfl, hall hblank⟩⟩
          rw [expect_eq_some.mp harray, hgap, hrest]
          simp [Tree.print, ofText]
  | none =>
  rw [harray] at hread
  dsimp only at hread
  cases hobject : expect '\x7b' text with
  | some inside =>
      rcases hskip : skipBlank inside with ⟨blank, next⟩
      obtain ⟨hgap, hblank⟩ := text_of_skipBlank hskip
      rw [hobject] at hread
      dsimp only at hread
      rw [hskip] at hread
      dsimp only at hread
      cases hclose : expect '\x7d' next with
      | some others =>
          rw [hclose] at hread
          cases hread
          refine ⟨?_, wellFormed_object.mpr ⟨hblank, Or.inl rfl, rfl⟩⟩
          rw [expect_eq_some.mp hobject, hgap, expect_eq_some.mp hclose]
          simp [Tree.print, printMembers, commaSeparated]
      | none =>
          rw [hclose] at hread
          obtain ⟨⟨members, last⟩, hmembers, heq⟩ := Option.map_eq_some_iff.mp hread
          cases heq
          obtain ⟨_, hrest, hall⟩ := h.members hmembers
          refine ⟨?_, wellFormed_object.mpr ⟨rfl, Or.inr rfl, hall hblank⟩⟩
          rw [expect_eq_some.mp hobject, hgap, hrest]
          simp [Tree.print, ofText]
  | none =>
      rw [hobject] at hread
      exact text_of_readScalar hread

theorem reads (fuel : Nat) : Reads fuel := by
  induction fuel with
  | zero =>
      constructor
      · intro text rest tree h
        rw [readTree] at h
        cases h
      · intro before text rest items h
        rw [readItems] at h
        cases h
      · intro before text rest members h
        rw [readMembers] at h
        cases h
  | succ fuel ih => exact ⟨ih.readTree_succ, ih.readItems_succ, ih.readMembers_succ⟩

theorem text_of_readText {text : Points} {before after : Blank} {tree : Tree}
    (h : readText text = some (before, tree, after)) :
    text = ofText before ++ tree.print ++ ofText after ∧
      everywhere wellFormedHere tree = true := by
  rcases hskip : skipBlank text with ⟨blank, inside⟩
  unfold readText at h
  dsimp only at h
  rw [hskip] at h
  dsimp only at h
  obtain ⟨⟨found, rest⟩, hread, h⟩ := Option.bind_eq_some_iff.mp h
  rcases hbehind : skipBlank rest with ⟨last, remaining⟩
  dsimp only at h
  rw [hbehind] at h
  dsimp only at h
  split_ifs at h with hempty
  cases h
  obtain ⟨hbefore, _⟩ := text_of_skipBlank hskip
  obtain ⟨htext, hwell⟩ := (reads _).tree hread
  obtain ⟨hafter, _⟩ := text_of_skipBlank hbehind
  rw [List.isEmpty_iff.mp hempty, List.append_nil] at hafter
  refine ⟨?_, hwell⟩
  rw [hbefore, htext, hafter, List.append_assoc]

/-!
## What can be read

By induction on the fuel, for the trees whose text is no longer than it. The first character of a
tree tells which of the readers goes on.
-/

def isStart (c : Char) : Bool :=
  isDigitChar c || ['-', '"', '[', '\x7b', 'n', 't', 'f', 'N', 'I'].contains c

theorem not_blank_of_isStart {c : Char} (h : isStart c = true) : isBlankChar c = false := by
  apply Bool.eq_false_iff.mpr
  intro hblank
  simp only [isBlankChar, Bool.or_eq_true, beq_iff_eq] at hblank
  rcases hblank with ((rfl | rfl) | rfl) | rfl <;> exact absurd h (by decide)

theorem ne_of_isStart {c d : Char} (h : isStart c = true) (hd : isStart d = false) : c ≠ d := by
  rintro rfl
  rw [h] at hd
  cases hd

theorem print_head {tree : Tree} (h : everywhere wellFormedHere tree = true) :
    exists c rest, tree.print = .char c :: rest ∧ isStart c = true := by
  cases tree with
  | word word => cases word <;> exact ⟨_, _, rfl, by decide⟩
  | number literal =>
      obtain ⟨d, rest, hdigit, rfl | rfl⟩ := head_of_isNumberLiteral h
      · refine ⟨d, ofText rest, rfl, ?_⟩
        unfold isStart
        rw [hdigit]
        rfl
      · exact ⟨'-', ofText (d :: rest), rfl, by decide⟩
  | string pieces => exact ⟨'"', _, rfl, by decide⟩
  | array blank items => exact ⟨'[', _, by rw [Tree.print]; rfl, by decide⟩
  | object blank members => exact ⟨'\x7b', _, by rw [Tree.print]; rfl, by decide⟩

theorem stops_print {tree : Tree} (h : everywhere wellFormedHere tree = true) (rest : Points) :
    Stops isBlankChar (tree.print ++ rest) := by
  obtain ⟨c, others, hprint, hstart⟩ := print_head h
  rw [hprint]
  exact stops_cons (not_blank_of_isStart hstart) _

theorem expect_print {tree : Tree} (h : everywhere wellFormedHere tree = true) {c : Char}
    (hc : isStart c = false) (rest : Points) : expect c (tree.print ++ rest) = none := by
  obtain ⟨d, others, hprint, hstart⟩ := print_head h
  rw [hprint]
  exact expect_other (ne_of_isStart hstart hc) _

def itemsBehind (others : List Item) (rest : Points) : Points :=
  (printItems others).flatMap (fun text => .char ',' :: text) ++ .char ']' :: rest

def membersBehind (others : List Member) (rest : Points) : Points :=
  (printMembers others).flatMap (fun text => .char ',' :: text) ++ .char '\x7d' :: rest

/-- With some fuel the reader finds every tree whose text is no longer. -/
structure Finds (fuel : Nat) : Prop where
  tree : forall {tree : Tree} {rest : Points}, everywhere wellFormedHere tree = true ->
    Stops isNumberChar rest -> tree.print.length ≤ fuel ->
      readTree fuel (tree.print ++ rest) = some (tree, rest)
  items : forall {before after : Blank} {tree : Tree} {others : List Item} {rest : Points},
    ((before, tree, after) :: others).all wellFormedItem = true ->
    (commaSeparated (printItems ((before, tree, after) :: others))).length < fuel ->
      readItems fuel before (tree.print ++ (ofText after ++ itemsBehind others rest)) =
        some ((before, tree, after) :: others, rest)
  members : forall {before left right after : Blank} {name : List Piece} {tree : Tree}
      {others : List Member} {rest : Points},
    ((before, name, left, right, tree, after) :: others).all wellFormedMember = true ->
    (commaSeparated (printMembers ((before, name, left, right, tree, after) :: others))).length <
      fuel ->
      readMembers fuel before (printQuoted name ++ (ofText left ++ .char ':' :: (ofText right ++
        (tree.print ++ (ofText after ++ membersBehind others rest))))) =
          some ((before, name, left, right, tree, after) :: others, rest)

theorem itemsBehind_cons (item : Item) (others : List Item) (rest : Points) :
    itemsBehind (item :: others) rest =
      .char ',' :: (ofText item.1 ++ (item.2.1.print ++ (ofText item.2.2 ++
        itemsBehind others rest))) := by
  rcases item with ⟨before, tree, after⟩
  simp [itemsBehind, printItems]

theorem membersBehind_cons (member : Member) (others : List Member) (rest : Points) :
    membersBehind (member :: others) rest =
      .char ',' :: (ofText member.1 ++ (printQuoted member.2.1 ++ (ofText member.2.2.1 ++
        .char ':' :: (ofText member.2.2.2.1 ++ (member.2.2.2.2.1.print ++
          (ofText member.2.2.2.2.2 ++ membersBehind others rest)))))) := by
  rcases member with ⟨before, name, left, right, tree, after⟩
  simp [membersBehind, printMembers]

theorem wellFormedItem_iff {before after : Blank} {tree : Tree} :
    wellFormedItem (before, tree, after) = true <->
      isBlank before = true ∧ isBlank after = true ∧ everywhere wellFormedHere tree = true := by
  simp [wellFormedItem, and_assoc]

theorem wellFormedMember_iff {before left right after : Blank} {name : List Piece}
    {tree : Tree} :
    wellFormedMember (before, name, left, right, tree, after) = true <->
      isBlank before = true ∧ name.all Piece.wellFormed = true ∧ isBlank left = true ∧
        isBlank right = true ∧ isBlank after = true ∧
        everywhere wellFormedHere tree = true := by
  simp [wellFormedMember, and_assoc]

theorem Finds.items_succ {fuel : Nat} (h : Finds fuel) {before after : Blank} {tree : Tree}
    {others : List Item} {rest : Points}
    (hall : ((before, tree, after) :: others).all wellFormedItem = true)
    (hfuel : (commaSeparated (printItems ((before, tree, after) :: others))).length < fuel + 1) :
    readItems (fuel + 1) before (tree.print ++ (ofText after ++ itemsBehind others rest)) =
      some ((before, tree, after) :: others, rest) := by
  rw [List.all_cons, Bool.and_eq_true, wellFormedItem_iff] at hall
  obtain ⟨⟨hbefore, hafter, htree⟩, hothers⟩ := hall
  simp only [printItems, commaSeparated, List.length_append] at hfuel
  rw [readItems]
  cases others with
  | nil =>
      have hbehind : itemsBehind [] rest = .char ']' :: rest := rfl
      rw [hbehind, h.tree htree (stops_blank hafter (by decide) rest) (by omega)]
      simp only [Option.bind_eq_bind, Option.bind_some]
      rw [skipBlank_append hafter (stops_cons (by decide) rest)]
      dsimp only
      rw [expect, if_pos rfl]
  | cons item others =>
      rcases item with ⟨blank, next, last⟩
      obtain ⟨⟨hblank, hlast, hnext⟩, _⟩ := by
        simpa only [List.all_cons, Bool.and_eq_true, wellFormedItem_iff] using hothers
      rw [itemsBehind_cons, h.tree htree (stops_blank hafter (by decide) _) (by omega)]
      simp only [Option.bind_eq_bind, Option.bind_some]
      rw [skipBlank_append hafter (stops_cons (by decide) _)]
      dsimp only
      rw [expect_other (by decide), expect, if_pos rfl]
      simp only [Option.bind_some]
      rw [skipBlank_append hblank (stops_print hnext _)]
      dsimp only
      rw [h.items hothers]
      · rfl
      · simp only [printItems, List.flatMap_cons, List.length_cons, List.length_append,
          commaSeparated] at hfuel ⊢
        omega

theorem Finds.members_succ {fuel : Nat} (h : Finds fuel) {before left right after : Blank}
    {name : List Piece} {tree : Tree} {others : List Member} {rest : Points}
    (hall : ((before, name, left, right, tree, after) :: others).all wellFormedMember = true)
    (hfuel : (commaSeparated
      (printMembers ((before, name, left, right, tree, after) :: others))).length < fuel + 1) :
    readMembers (fuel + 1) before (printQuoted name ++ (ofText left ++ .char ':' ::
      (ofText right ++ (tree.print ++ (ofText after ++ membersBehind others rest))))) =
        some ((before, name, left, right, tree, after) :: others, rest) := by
  rw [List.all_cons, Bool.and_eq_true, wellFormedMember_iff] at hall
  obtain ⟨⟨hbefore, hname, hleft, hright, hafter, htree⟩, hothers⟩ := hall
  simp only [printMembers, commaSeparated, List.length_append, List.length_cons] at hfuel
  rw [readMembers, readString_print hname]
  simp only [Option.bind_eq_bind, Option.bind_some]
  rw [skipBlank_append hleft (stops_cons (by decide) _)]
  dsimp only
  rw [expect, if_pos rfl]
  simp only [Option.bind_some]
  rw [skipBlank_append hright (stops_print htree _)]
  dsimp only
  cases others with
  | nil =>
      have hbehind : membersBehind [] rest = .char '\x7d' :: rest := rfl
      rw [hbehind, h.tree htree (stops_blank hafter (by decide) rest) (by omega)]
      simp only [Option.bind_some]
      rw [skipBlank_append hafter (stops_cons (by decide) rest)]
      dsimp only
      rw [expect, if_pos rfl]
  | cons member others =>
      rcases member with ⟨blank, next, first, second, value, last⟩
      obtain ⟨⟨hblank, hnext, hfirst, hsecond, hlast, hvalue⟩, _⟩ := by
        simpa only [List.all_cons, Bool.and_eq_true, wellFormedMember_iff] using hothers
      have hstop : forall text, Stops isBlankChar (printQuoted next ++ text) :=
        fun _ => stops_cons (by decide) _
      rw [membersBehind_cons, h.tree htree (stops_blank hafter (by decide) _) (by omega)]
      simp only [Option.bind_some]
      rw [skipBlank_append hafter (stops_cons (by decide) _)]
      dsimp only
      rw [expect_other (by decide), expect, if_pos rfl]
      simp only [Option.bind_some]
      rw [skipBlank_append hblank (hstop _)]
      dsimp only
      rw [h.members hothers]
      · rfl
      · simp only [printMembers, List.flatMap_cons, List.length_cons, List.length_append,
          commaSeparated] at hfuel ⊢
        omega

theorem readTree_scalar {fuel : Nat} {c : Char} (hquote : c ≠ '"') (harray : c ≠ '[')
    (hobject : c ≠ '\x7b') (rest : Points) :
    readTree (fuel + 1) (.char c :: rest) = readScalar (.char c :: rest) := by
  rw [readTree, readString_other hquote, expect_other harray, expect_other hobject]

theorem Finds.array_succ {fuel : Nat} (h : Finds fuel) {blank : Blank} {items : List Item}
    {rest : Points} (hwell : everywhere wellFormedHere (.array blank items) = true)
    (hfuel : (Tree.array blank items).print.length ≤ fuel + 1) :
    readTree (fuel + 1) ((Tree.array blank items).print ++ rest) =
      some (.array blank items, rest) := by
  obtain ⟨hblank, hempty, hall⟩ := wellFormed_array.mp hwell
  rw [Tree.print, List.cons_append, List.cons_append, List.cons_append, List.append_assoc,
    List.append_assoc, readTree, readString_other (by decide), expect, if_pos rfl]
  dsimp only
  cases items with
  | nil =>
      have htext : commaSeparated (printItems []) ++ ([.char ']'] ++ rest) =
          .char ']' :: rest := rfl
      rw [htext, skipBlank_append hblank (stops_cons (by decide) rest)]
      rfl
  | cons item others =>
      rcases item with ⟨before, tree, after⟩
      obtain rfl : blank = [] := hempty.resolve_left (List.cons_ne_nil _ _)
      obtain ⟨⟨hbefore, hafter, htree⟩, _⟩ := by
        simpa only [List.all_cons, Bool.and_eq_true, wellFormedItem_iff] using hall
      have htext : ofText [] ++ (commaSeparated (printItems ((before, tree, after) :: others)) ++
          ([.char ']'] ++ rest)) =
          ofText before ++ (tree.print ++ (ofText after ++ itemsBehind others rest)) := by
        simp [ofText, printItems, commaSeparated, itemsBehind]
      rw [htext, skipBlank_append hbefore (stops_print htree _)]
      dsimp only
      rw [expect_print htree (by decide), h.items hall]
      · rfl
      · simp only [Tree.print, List.length_cons, List.length_append, List.length_nil] at hfuel
        omega

theorem Finds.object_succ {fuel : Nat} (h : Finds fuel) {blank : Blank} {members : List Member}
    {rest : Points} (hwell : everywhere wellFormedHere (.object blank members) = true)
    (hfuel : (Tree.object blank members).print.length ≤ fuel + 1) :
    readTree (fuel + 1) ((Tree.object blank members).print ++ rest) =
      some (.object blank members, rest) := by
  obtain ⟨hblank, hempty, hall⟩ := wellFormed_object.mp hwell
  rw [Tree.print, List.cons_append, List.cons_append, List.cons_append, List.append_assoc,
    List.append_assoc, readTree, readString_other (by decide), expect_other (by decide), expect,
    if_pos rfl]
  dsimp only
  cases members with
  | nil =>
      have htext : commaSeparated (printMembers []) ++ ([.char '\x7d'] ++ rest) =
          .char '\x7d' :: rest := rfl
      rw [htext, skipBlank_append hblank (stops_cons (by decide) rest)]
      rfl
  | cons member others =>
      rcases member with ⟨before, name, left, right, tree, after⟩
      obtain rfl : blank = [] := hempty.resolve_left (List.cons_ne_nil _ _)
      obtain ⟨⟨hbefore, hname, hleft, hright, hafter, htree⟩, _⟩ := by
        simpa only [List.all_cons, Bool.and_eq_true, wellFormedMember_iff] using hall
      have htext : ofText [] ++
          (commaSeparated (printMembers ((before, name, left, right, tree, after) :: others)) ++
            ([.char '\x7d'] ++ rest)) =
          ofText before ++ (printQuoted name ++ (ofText left ++ .char ':' :: (ofText right ++
            (tree.print ++ (ofText after ++ membersBehind others rest))))) := by
        simp [ofText, printMembers, commaSeparated, membersBehind]
      have hstop : forall text, Stops isBlankChar (printQuoted name ++ text) :=
        fun _ => stops_cons (by decide) _
      have hopen : forall text, expect '\x7d' (printQuoted name ++ text) = none :=
        fun _ => expect_other (by decide) _
      rw [htext, skipBlank_append hbefore (hstop _)]
      dsimp only
      rw [hopen, h.members hall]
      · rfl
      · simp only [Tree.print, List.length_cons, List.length_append, List.length_nil] at hfuel
        omega

theorem Finds.tree_succ {fuel : Nat} (h : Finds fuel) {tree : Tree} {rest : Points}
    (hwell : everywhere wellFormedHere tree = true) (hstop : Stops isNumberChar rest)
    (hfuel : tree.print.length ≤ fuel + 1) :
    readTree (fuel + 1) (tree.print ++ rest) = some (tree, rest) := by
  cases tree with
  | word word =>
      have hscalar := readScalar_word word rest
      rw [Tree.print, <- hscalar]
      cases word <;> exact readTree_scalar (by decide) (by decide) (by decide) _
  | number literal =>
      have hscalar := readScalar_number hwell hstop
      rw [Tree.print, <- hscalar]
      obtain ⟨d, others, hdigit, rfl | rfl⟩ := head_of_isNumberLiteral hwell
      · have hne : forall c, isDigitChar c = false -> d ≠ c := by
          rintro c hc rfl
          rw [hdigit] at hc
          cases hc
        exact readTree_scalar (hne _ (by decide)) (hne _ (by decide)) (hne _ (by decide)) _
      · exact readTree_scalar (by decide) (by decide) (by decide) _
  | string pieces =>
      rw [Tree.print, readTree, readString_print hwell]
  | array blank items => exact h.array_succ hwell hfuel
  | object blank members => exact h.object_succ hwell hfuel

theorem finds (fuel : Nat) : Finds fuel := by
  induction fuel with
  | zero =>
      constructor
      · intro tree rest hwell _ hfuel
        obtain ⟨c, others, hprint, _⟩ := print_head hwell
        rw [hprint] at hfuel
        cases hfuel
      · intro before after tree others rest _ hfuel
        cases hfuel
      · intro before left right after name tree others rest _ hfuel
        cases hfuel
  | succ fuel ih => exact ⟨ih.tree_succ, ih.items_succ, ih.members_succ⟩

theorem readText_print {tree : Tree} (h : everywhere wellFormedHere tree = true) :
    readText tree.print = some ([], tree, []) := by
  have hskip : skipBlank tree.print = ([], tree.print) := by
    have hnone := @skipBlank_append [] _ rfl (stops_print h [])
    rwa [List.append_nil] at hnone
  have hread := (finds tree.print.length).tree h (stops_nil _) (Nat.le_refl _)
  rw [List.append_nil] at hread
  unfold readText
  dsimp only
  rw [hskip]
  dsimp only
  rw [hread]
  rfl

end Ump.Codec
