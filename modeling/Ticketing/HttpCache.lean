import Mathlib.Data.List.DropRight

/-!
# Entity tags of a conditional request

`ifNoneMatch` scans the bytes of an If-None-Match header once, from left to right. What it accepts
is the grammar of entity-tag lists: a tag found early counts only if all that follows is a list.
-/

namespace Ticketing.HttpCache

abbrev Bytes := List UInt8

def blank (c : UInt8) : Bool := c == 0x20 || c == 0x09

def quote : UInt8 := 0x22

def comma : UInt8 := 0x2c

def star : Bytes := [0x2a]

def weakMark : Bytes := [0x57, 0x2f]

def trim (v : Bytes) : Bytes := (v.dropWhile blank).rdropWhile blank

/-- Drop a leading `W/`. -/
def dropWeak (v : Bytes) : Bytes := if weakMark <+: v then v.drop 2 else v

/-- The bytes up to the closing quote, and the rest. -/
def opaqueTag : Bytes → Option (Bytes × Bytes)
  | [] => none
  | c :: rest =>
      if c = quote then some ([], rest)
      else if c < 0x21 ∨ c = 0x7f then none
      else (opaqueTag rest).map fun found => (c :: found.1, found.2)

/-- One item with the blanks around it: its tag with the quotes, and the rest. -/
def item (v : Bytes) : Option (Bytes × Bytes) :=
  match dropWeak (v.dropWhile blank) with
  | [] => none
  | c :: rest =>
      if c = quote then
        (opaqueTag rest).map fun found =>
          (quote :: found.1 ++ [quote], found.2.dropWhile blank)
      else none

theorem opaqueTag_length {v body rest : Bytes} (h : opaqueTag v = some (body, rest)) :
    rest.length < v.length := by
  induction v generalizing body with
  | nil => cases h
  | cons c v ih =>
      rw [opaqueTag] at h
      split at h
      · cases h
        simp
      · split at h
        · cases h
        · obtain ⟨found, hfound, hpair⟩ := Option.map_eq_some_iff.mp h
          cases hpair
          have hshort := @ih found.1 hfound
          simp only [List.length_cons]
          omega

theorem item_length {v tag rest : Bytes} (h : item v = some (tag, rest)) :
    rest.length < v.length := by
  unfold item at h
  split at h
  · cases h
  · rename_i c after hv
    split at h
    · obtain ⟨found, hfound, hpair⟩ := Option.map_eq_some_iff.mp h
      cases hpair
      have hopaque := opaqueTag_length hfound
      have hblank := (List.dropWhile_sublist blank (l := found.2)).length_le
      have hweak : (dropWeak (v.dropWhile blank)).length ≤ v.length := by
        have hdrop := (List.dropWhile_sublist blank (l := v)).length_le
        unfold dropWeak
        split
        · rw [List.length_drop]
          omega
        · exact hdrop
      rw [hv, List.length_cons] at hweak
      omega
    · cases h

/-- The scanning loop, with the match found so far. -/
def tagList (current : Bytes) (matched : Bool) (v : Bytes) : Bool :=
  match _h : item v with
  | none => false
  | some (tag, []) => matched || tag == current
  | some (tag, c :: rest) =>
      if c ≠ comma ∨ rest = [] then false
      else tagList current (matched || tag == current) rest
termination_by v.length
decreasing_by
  have hshort := item_length _h
  rw [List.length_cons] at hshort
  omega

def ifNoneMatch (header current : Bytes) : Bool :=
  if trim header = star then true
  else tagList (dropWeak current) false (trim header)

/-! ## The grammar -/

/-- A quoted string without control characters, spaces and quotes inside. -/
def Quoted (tag : Bytes) : Prop :=
  ∃ body, tag = quote :: body ++ [quote] ∧ ∀ c ∈ body, c ≠ quote ∧ 0x21 ≤ c ∧ c ≠ 0x7f

/-- An entity tag, weak or strong, with its quoted part. -/
def EntityTag (text tag : Bytes) : Prop := Quoted tag ∧ (text = tag ∨ text = weakMark ++ tag)

def Blanks (v : Bytes) : Prop := ∀ c ∈ v, blank c = true

/-- An entity tag with blanks around it. -/
def Item (text tag : Bytes) : Prop :=
  ∃ before body after, text = before ++ body ++ after ∧ Blanks before ∧ Blanks after ∧
    EntityTag body tag

/-- A comma-separated list of items with their quoted parts. -/
inductive TagList : Bytes → List Bytes → Prop where
  | last {text tag : Bytes} (head : Item text tag) : TagList text [tag]
  | cons {text tag rest : Bytes} {tags : List Bytes} (head : Item text tag)
      (tail : TagList rest tags) : TagList (text ++ comma :: rest) (tag :: tags)

/-! ## One item -/

/-- What follows an item once its blanks are skipped. -/
def Stops (rest : Bytes) : Prop := ∀ c ∈ rest.head?, blank c = false

theorem stops_dropWhile (v : Bytes) : Stops (v.dropWhile blank) := by
  intro c hc
  have hne : v.dropWhile blank ≠ [] := by
    intro hnil
    rw [hnil] at hc
    cases hc
  have hhead := List.head_dropWhile_not blank hne
  rw [List.head?_eq_some_head hne] at hc
  cases hc
  simpa using hhead

theorem dropWhile_blanks {before rest : Bytes} (h : Blanks before) (hrest : Stops rest) :
    (before ++ rest).dropWhile blank = rest := by
  rw [List.dropWhile_append_of_pos h]
  cases rest with
  | nil => rfl
  | cons c rest => rw [List.dropWhile_cons_of_neg (by simpa using hrest c rfl)]

theorem opaqueTag_append {body : Bytes}
    (h : ∀ c ∈ body, c ≠ quote ∧ 0x21 ≤ c ∧ c ≠ 0x7f) (rest : Bytes) :
    opaqueTag (body ++ quote :: rest) = some (body, rest) := by
  induction body with
  | nil => rw [List.nil_append, opaqueTag, if_pos rfl]
  | cons c body ih =>
      obtain ⟨hquote, hlow, hdel⟩ := h c List.mem_cons_self
      have hok : ¬(c < 0x21 ∨ c = 0x7f) := by
        rintro (hlt | heq)
        · exact absurd hlt (UInt8.not_lt.mpr hlow)
        · exact hdel heq
      rw [List.cons_append, opaqueTag, if_neg hquote, if_neg hok,
        ih fun c hc => h c (List.mem_cons_of_mem _ hc)]
      rfl

theorem opaqueTag_some {v body rest : Bytes} (h : opaqueTag v = some (body, rest)) :
    v = body ++ quote :: rest ∧ ∀ c ∈ body, c ≠ quote ∧ 0x21 ≤ c ∧ c ≠ 0x7f := by
  induction v generalizing body with
  | nil => cases h
  | cons c v ih =>
      rw [opaqueTag] at h
      split at h
      · rename_i hquote
        cases h
        exact ⟨by rw [hquote]; rfl, fun _ hc => by cases hc⟩
      · rename_i hquote
        split at h
        · cases h
        · rename_i hok
          rw [not_or] at hok
          obtain ⟨found, hfound, hpair⟩ := Option.map_eq_some_iff.mp h
          cases hpair
          obtain ⟨hv, hbody⟩ := ih hfound
          refine ⟨by rw [hv]; rfl, fun c' hc' => ?_⟩
          rcases List.mem_cons.mp hc' with rfl | hc'
          · exact ⟨hquote, UInt8.not_lt.mp hok.1, hok.2⟩
          · exact hbody c' hc'

theorem dropWeak_quote (v : Bytes) : dropWeak (quote :: v) = quote :: v := by
  unfold dropWeak
  rw [if_neg]
  intro hprefix
  obtain ⟨rest, hrest⟩ := hprefix
  cases hrest

theorem dropWeak_weak (v : Bytes) : dropWeak (weakMark ++ v) = v := by
  unfold dropWeak
  rw [if_pos (List.prefix_append _ _)]
  rfl

theorem dropWeak_tag {text tag : Bytes} (h : EntityTag text tag) (rest : Bytes) :
    dropWeak (text ++ rest) = tag ++ rest := by
  obtain ⟨⟨body, rfl, _⟩, rfl | rfl⟩ := h
  · exact dropWeak_quote _
  · rw [List.append_assoc]
    exact dropWeak_weak _

theorem stops_tag {text tag : Bytes} (h : EntityTag text tag) (rest : Bytes) :
    Stops (text ++ rest) := by
  obtain ⟨⟨body, rfl, _⟩, rfl | rfl⟩ := h
  · intro c hc
    cases hc
    rfl
  · intro c hc
    cases hc
    rfl

theorem item_append {text tag rest : Bytes} (h : Item text tag) (hrest : Stops rest) :
    item (text ++ rest) = some (tag, rest) := by
  obtain ⟨before, body, after, rfl, hbefore, hafter, htag⟩ := h
  have hstart : (before ++ body ++ after ++ rest).dropWhile blank = body ++ (after ++ rest) := by
    rw [List.append_assoc, List.append_assoc]
    exact dropWhile_blanks hbefore (stops_tag htag _)
  obtain ⟨inner, hquoted, hinner⟩ := htag.1
  unfold item
  rw [hstart, dropWeak_tag htag, hquoted]
  have hread : opaqueTag (inner ++ [quote] ++ (after ++ rest)) = some (inner, after ++ rest) := by
    rw [List.append_assoc]
    exact opaqueTag_append hinner _
  simp only [List.cons_append, if_true, hread, Option.map_some]
  rw [dropWhile_blanks hafter hrest]

theorem dropWeak_eq (v : Bytes) : v = dropWeak v ∨ v = weakMark ++ dropWeak v := by
  unfold dropWeak
  split
  · rename_i hprefix
    obtain ⟨rest, rfl⟩ := hprefix
    exact .inr rfl
  · exact .inl rfl

theorem item_some {v tag rest : Bytes} (h : item v = some (tag, rest)) :
    ∃ text, Item text tag ∧ v = text ++ rest ∧ Stops rest := by
  unfold item at h
  split at h
  · cases h
  · rename_i c after hv
    split at h
    · rename_i hquote
      obtain ⟨found, hfound, hpair⟩ := Option.map_eq_some_iff.mp h
      cases hpair
      obtain ⟨hafter, hbody⟩ := opaqueTag_some hfound
      have hquoted : Quoted (quote :: found.1 ++ [quote]) := ⟨found.1, rfl, hbody⟩
      have htail : dropWeak (v.dropWhile blank) = quote :: found.1 ++ [quote] ++ found.2 := by
        rw [hv, hquote, hafter]
        simp
      have hblanks : ∀ w : Bytes, Blanks (w.takeWhile blank) :=
        fun w c hc => List.mem_takeWhile_imp hc
      have hsplit : found.2 = found.2.takeWhile blank ++ found.2.dropWhile blank :=
        List.takeWhile_append_dropWhile.symm
      have hbody' : ∃ body, EntityTag body (quote :: found.1 ++ [quote]) ∧
          v.dropWhile blank = body ++ found.2 := by
        rcases dropWeak_eq (v.dropWhile blank) with hstrong | hweak
        · exact ⟨_, ⟨hquoted, .inl rfl⟩, by rw [hstrong, htail]⟩
        · exact ⟨_, ⟨hquoted, .inr rfl⟩, by rw [hweak, htail, ← List.append_assoc]⟩
      obtain ⟨body, htag, hbody''⟩ := hbody'
      refine ⟨v.takeWhile blank ++ body ++ found.2.takeWhile blank,
        ⟨_, _, _, rfl, hblanks v, hblanks _, htag⟩, ?_, stops_dropWhile _⟩
      calc v = v.takeWhile blank ++ v.dropWhile blank := List.takeWhile_append_dropWhile.symm
        _ = v.takeWhile blank ++ (body ++ (found.2.takeWhile blank ++ found.2.dropWhile blank)) := by
            rw [hbody'', ← hsplit]
        _ = _ := by simp only [List.append_assoc]
    · cases h

/-! ## The list -/

theorem item_ne_nil {text tag : Bytes} (h : Item text tag) : text ≠ [] := by
  obtain ⟨before, body, after, rfl, _, _, ⟨inner, rfl, _⟩, rfl | rfl⟩ := h <;> simp [weakMark]

theorem tagList_ne_nil {v : Bytes} {tags : List Bytes} (h : TagList v tags) : v ≠ [] := by
  cases h with
  | last head => exact item_ne_nil head
  | cons head tail => simp

theorem stops_comma (rest : Bytes) : Stops (comma :: rest) := by
  intro c hc
  cases hc
  rfl

theorem tagList_last {current v tag : Bytes} {matched : Bool} (h : item v = some (tag, [])) :
    tagList current matched v = (matched || tag == current) := by
  rw [tagList]
  split
  · rename_i hnone
    rw [h] at hnone
    cases hnone
  · rename_i tag' hsome
    rw [h] at hsome
    cases hsome
    rfl
  · rename_i hsome
    rw [h] at hsome
    cases hsome

theorem tagList_cons {current v tag rest : Bytes} {c : UInt8} {matched : Bool}
    (h : item v = some (tag, c :: rest)) : tagList current matched v =
      if c ≠ comma ∨ rest = [] then false else tagList current (matched || tag == current) rest := by
  rw [tagList]
  split
  · rename_i hnone
    rw [h] at hnone
    cases hnone
  · rename_i hsome
    rw [h] at hsome
    cases hsome
  · rename_i hsome
    rw [h] at hsome
    cases hsome
    rfl

/-- A text of the grammar is scanned to its end, whatever has matched before. -/
theorem tagList_of_grammar {current v : Bytes} {tags : List Bytes} (h : TagList v tags)
    (matched : Bool) : tagList current matched v = true ↔ matched = true ∨ current ∈ tags := by
  induction h generalizing matched with
  | last head =>
      have hread := @item_append _ _ [] head (fun _ hc => by cases hc)
      rw [List.append_nil] at hread
      rw [tagList_last hread, Bool.or_eq_true, beq_iff_eq, List.mem_singleton, eq_comm (a := current)]
  | @cons text tag rest tags head tail ih =>
      have hread := item_append head (stops_comma rest)
      have hnext := tagList_ne_nil tail
      rw [tagList_cons hread, if_neg (by simp [hnext]), ih, Bool.or_eq_true, beq_iff_eq,
        List.mem_cons, or_assoc, eq_comm (a := current)]

/-- Nothing else is accepted. -/
theorem grammar_of_tagList {current v : Bytes} {matched : Bool}
    (h : tagList current matched v = true) : ∃ tags, TagList v tags := by
  induction hn : v.length using Nat.strong_induction_on generalizing v matched with
  | _ n ih =>
      cases hitem : item v with
      | none =>
          rw [tagList] at h
          split at h
          · cases h
          · rename_i hsome
            rw [hitem] at hsome
            cases hsome
          · rename_i hsome
            rw [hitem] at hsome
            cases hsome
      | some found =>
          obtain ⟨tag, rest⟩ := found
          obtain ⟨text, htext, hv, _⟩ := item_some hitem
          cases rest with
          | nil =>
              rw [List.append_nil] at hv
              exact ⟨[tag], hv ▸ .last htext⟩
          | cons c rest =>
              rw [tagList_cons hitem] at h
              split at h
              · cases h
              · rename_i hcomma
                have hc : c = comma := by
                  by_contra hne
                  exact hcomma (.inl hne)
                have hshort := item_length hitem
                rw [List.length_cons] at hshort
                obtain ⟨tags, htags⟩ := ih rest.length (by omega) h rfl
                refine ⟨tag :: tags, ?_⟩
                rw [hv, hc]
                exact .cons htext htags

/-- The header matches a current tag exactly if it is a star or a list of entity tags one of which
has the quoted part of the current one. -/
theorem ifNoneMatch_iff (header current tag : Bytes) (hcurrent : EntityTag current tag) :
    ifNoneMatch header current = true ↔
      trim header = star ∨ ∃ tags, TagList (trim header) tags ∧ tag ∈ tags := by
  have htag : dropWeak current = tag := by
    have hdrop := dropWeak_tag hcurrent []
    rwa [List.append_nil, List.append_nil] at hdrop
  unfold ifNoneMatch
  split
  · rename_i hstar
    exact ⟨fun _ => .inl hstar, fun _ => rfl⟩
  · rename_i hstar
    rw [htag]
    constructor
    · intro h
      obtain ⟨tags, htags⟩ := grammar_of_tagList h
      have hmem := (tagList_of_grammar htags false).mp h
      exact .inr ⟨tags, htags, hmem.resolve_left (by decide)⟩
    · rintro (hyes | ⟨tags, htags, hmem⟩)
      · exact absurd hyes hstar
      · exact (tagList_of_grammar htags false).mpr (.inr hmem)

/-- The header `"a,b", W/"c"` against the strong tag `"c"`. -/
theorem ifNoneMatch_iff_weak : ifNoneMatch
    [0x22, 0x61, 0x2c, 0x62, 0x22, 0x2c, 0x20, 0x57, 0x2f, 0x22, 0x63, 0x22]
    [0x22, 0x63, 0x22] = true := by
  have hfirst : Quoted [0x22, 0x61, 0x2c, 0x62, 0x22] :=
    ⟨[0x61, 0x2c, 0x62], rfl, by simp [quote]⟩
  have hsecond : Quoted [0x22, 0x63, 0x22] := ⟨[0x63], rfl, by simp [quote]⟩
  have hlist : TagList
      ([0x22, 0x61, 0x2c, 0x62, 0x22] ++ comma :: [0x20, 0x57, 0x2f, 0x22, 0x63, 0x22])
      [[0x22, 0x61, 0x2c, 0x62, 0x22], [0x22, 0x63, 0x22]] := by
    apply TagList.cons
    · exact ⟨[], _, [], rfl, by simp [Blanks], by simp [Blanks], hfirst, .inl rfl⟩
    · apply TagList.last
      exact ⟨[0x20], _, [], rfl, by simp [Blanks, blank], by simp [Blanks], hsecond, .inr rfl⟩
  exact (ifNoneMatch_iff _ _ [0x22, 0x63, 0x22] ⟨hsecond, .inl rfl⟩).mpr
    (.inr ⟨_, hlist, List.mem_cons_of_mem _ List.mem_cons_self⟩)

end Ticketing.HttpCache
