/-
This file proves what becomes of documents that are written to a file and read from it.

A document is written in printable characters and line feeds only, so its text is stored and read as
it is. What is read has no name twice in an object. Whatever equals an object is an object, of no
greater depth. A document in which no object names a member twice equals itself, and objects of that
kind are equal if they have the same under every name.
-/

import ShaderReduction.Document.Printer
import ShaderReduction.Document.Reader
import ShaderReduction.Proofs.FileText

namespace ShaderReduction

namespace Text

/-! ### Numerals -/

theorem isRead_replicate {point : CodePoint} {character : Char}
    (isScalar : point = .scalar character)
    (notReturn : character ≠ '\r') (count : Nat) : IsRead (List.replicate count point) := by
  intro other member
  rw [List.eq_of_mem_replicate member, isScalar]
  exact ⟨⟨character, rfl⟩, fun same => notReturn (CodePoint.scalar.inj same)⟩

/-- The code points of which numerals are made. -/
def numeralPoints : Text := "0123456789+-.e"

/-- A text is made of the code points of numerals. -/
def IsNumeral (text : Text) : Prop := text ⊆ numeralPoints

instance : DecidablePred IsNumeral := fun text =>
  inferInstanceAs (Decidable (∀ point ∈ text, point ∈ numeralPoints))

theorem IsNumeral.isRead {text : Text} (isNumeral : IsNumeral text) : IsRead text :=
  (isRead_ofString (by decide)).mono isNumeral

theorem IsNumeral.mono {text part : Text} (isNumeral : IsNumeral text) (within : part ⊆ text) :
    IsNumeral part := List.Subset.trans within isNumeral

theorem IsNumeral.append {text more : Text} (isNumeral : IsNumeral text)
    (moreIsNumeral : IsNumeral more) : IsNumeral (text ++ more) :=
  List.append_subset.2 ⟨isNumeral, moreIsNumeral⟩

theorem isNumeral_replicate {point : CodePoint} (member : point ∈ numeralPoints) (count : Nat) :
    IsNumeral (List.replicate count point) :=
  fun _ within => List.eq_of_mem_replicate within ▸ member

theorem ofNat_subset (number : Nat) : ofNat number ⊆ ("0123456789" : Text) := by
  have digits : ∀ place < 128, (Char.ofNat place).isDigit = true →
      .scalar (Char.ofNat place) ∈ ("0123456789" : Text) := by decide
  intro point member
  obtain ⟨character, within, rfl⟩ := List.mem_map.1 member
  have isDigit := Nat.isDigit_of_mem_toDigits (by decide) (by decide) within
  have small : character.toNat < 128 := by
    have below := (Bool.and_eq_true_iff.1 isDigit).2
    exact Nat.lt_of_le_of_lt (of_decide_eq_true below) (by decide)
  rw [← Char.ofNat_toNat character] at isDigit ⊢
  exact digits _ small isDigit

theorem ofInt_subset (number : Int) : ofInt number ⊆ ("0123456789-" : Text) := by
  have within : ("0123456789" : Text) ⊆ ("0123456789-" : Text) := by decide
  cases number with
  | ofNat number => exact List.Subset.trans (ofNat_subset number) within
  | negSucc number =>
    exact List.cons_subset.2 ⟨by decide, List.Subset.trans (ofNat_subset (number + 1)) within⟩

theorem isNumeral_ofNat (number : Nat) : IsNumeral (ofNat number) :=
  List.Subset.trans (ofNat_subset number) (by decide)

theorem isNumeral_ofInt (number : Int) : IsNumeral (ofInt number) :=
  List.Subset.trans (ofInt_subset number) (by decide)

theorem IsNumeral.padStart {text : Text} (isNumeral : IsNumeral text) (width : Nat) :
    IsNumeral (padStart (.scalar '0') width text) :=
  (isNumeral_replicate (by decide) _).append isNumeral

theorem isRead_hexadecimal (digits number : Nat) : IsRead (hexadecimal digits number) := by
  have noReturn : ∀ value < 16, Nat.digitChar value ≠ '\r' := by decide
  induction digits generalizing number with
  | zero => exact isRead_nil
  | succ digits inductionHypothesis =>
    refine (inductionHypothesis _).append ?_
    exact isRead_replicate rfl (noReturn _ (Nat.mod_lt number (by decide))) 1

end Text

namespace Double

open Text

theorem isNumeral_sign (negative : Bool) : IsNumeral (sign negative) := by
  cases negative
  · exact List.nil_subset _
  · exact show IsNumeral ("-" : Text) by decide

theorem isNumeral_writtenOut {digits : Text} (isNumeral : IsNumeral digits) (exponent : Int) :
    IsNumeral (writtenOut digits exponent) := by
  cases exponent with
  | ofNat power =>
    have ending : IsNumeral (".0" : Text) := by decide
    exact (isNumeral.append (isNumeral_replicate (by decide) power)).append ending
  | negSucc power =>
    have padded := isNumeral.padStart (power + 1 + 1)
    have point : IsNumeral ("." : Text) := by decide
    exact ((padded.mono (List.take_subset _ _)).append point).append
      (padded.mono (List.drop_subset _ _))

theorem isNumeral_withExponent (style : NumeralStyle) {digits : Text}
    (isNumeral : IsNumeral digits) (power : Int) :
    IsNumeral (withExponent style digits power) := by
  have size := (isNumeral_ofNat power.natAbs).padStart style.exponentDigits
  refine IsNumeral.append (IsNumeral.append ?_ ?_) size
  · cases digits with
    | nil => exact List.nil_subset _
    | cons first rest =>
      cases rest with
      | nil => exact isNumeral
      | cons second rest =>
        obtain ⟨leading, others⟩ := List.cons_subset.1 isNumeral
        exact List.cons_subset.2 ⟨leading, List.cons_subset.2 ⟨by decide, others⟩⟩
  · split
    · exact show IsNumeral ("e-" : Text) by decide
    · exact show IsNumeral ("e+" : Text) by decide

theorem isNumeral_magnitudeNumeral (style : NumeralStyle) (significand : Nat) (exponent : Int) :
    IsNumeral (magnitudeNumeral style significand exponent) := by
  unfold magnitudeNumeral
  dsimp only
  split
  · exact isNumeral_writtenOut (isNumeral_ofNat _) _
  · exact isNumeral_withExponent style (isNumeral_ofNat _) _

end Double

namespace Document

open Text

/-! ### What is written -/

theorem isRead_unitEscape (unit : Nat) : IsRead (unitEscape unit) :=
  (isRead_ofString (by decide)).append (isRead_hexadecimal 4 unit)

theorem isRead_escaped (point : CodePoint) : IsRead (escaped point) := by
  unfold escaped
  dsimp only
  split_ifs with _ _ _ _ _ _ _ printable
  iterate 7 exact isRead_ofString (by decide)
  · cases point with
    | scalar character =>
      have noReturn : character ≠ '\r' := by
        rintro rfl
        exact absurd printable (by decide)
      exact isRead_replicate rfl noReturn 1
    | surrogate offset =>
      rw [CodePoint.toNat_surrogate] at printable
      omega
  · exact isRead_unitEscape _
  · exact (isRead_unitEscape _).append (isRead_unitEscape _)

theorem isRead_quoted (text : Text) : IsRead (quoted text) := by
  have quote : IsRead ("\"" : Text) := isRead_ofString (by decide)
  refine (quote.append fun point member => ?_).append quote
  obtain ⟨original, -, within⟩ := List.mem_flatMap.1 member
  exact isRead_escaped original point within

theorem isRead_numberText (value : Double) : IsRead (numberText value) := by
  cases value with
  | finite negative significand exponent =>
    exact ((Double.isNumeral_sign negative).append
      (Double.isNumeral_magnitudeNumeral _ _ _)).isRead
  | infinite negative =>
    exact (Double.isNumeral_sign negative).isRead.append (isRead_ofString (by decide))
  | undefined => exact isRead_ofString (by decide)

theorem isRead_newLine (level : Nat) : IsRead (newLine level) :=
  isRead_lineFeed.append (isRead_replicate rfl (by decide) _)

mutual

theorem isRead_indentedAt (level : Nat) : ∀ document, IsRead (indentedAt level document)
  | null => isRead_ofString (by decide)
  | boolean true => isRead_ofString (by decide)
  | boolean false => isRead_ofString (by decide)
  | integer value => (isNumeral_ofInt value).isRead
  | number value => isRead_numberText value
  | string value => isRead_quoted value
  | array [] => isRead_ofString (by decide)
  | array (item :: items) =>
    ((((isRead_ofString (by decide)).append (isRead_newLine _)).append
      (isRead_indentedItems (level + 1) (item :: items))).append (isRead_newLine _)).append
      (isRead_ofString (by decide))
  | object [] => isRead_ofString (by decide)
  | object (member :: members) =>
    ((((isRead_ofString (by decide)).append (isRead_newLine _)).append
      (isRead_indentedMembers (level + 1) (member :: members))).append (isRead_newLine _)).append
      (isRead_ofString (by decide))

theorem isRead_indentedItems (level : Nat) : ∀ items, IsRead (indentedItems level items)
  | [] => isRead_nil
  | [item] => isRead_indentedAt level item
  | item :: next :: items =>
    (((isRead_indentedAt level item).append (isRead_ofString (by decide))).append
      (isRead_newLine _)).append (isRead_indentedItems level (next :: items))

theorem isRead_indentedMembers (level : Nat) : ∀ members, IsRead (indentedMembers level members)
  | [] => isRead_nil
  | [(name, value)] =>
    ((isRead_quoted name).append (isRead_ofString (by decide))).append
      (isRead_indentedAt level value)
  | (name, value) :: next :: members =>
    (((((isRead_quoted name).append (isRead_ofString (by decide))).append
      (isRead_indentedAt level value)).append (isRead_ofString (by decide))).append
      (isRead_newLine _)).append (isRead_indentedMembers level (next :: members))

end

/-- A document comes back from a file as it was written. -/
theorem isRead_indented (document : Document) :
    IsRead (document.indented ++ [.scalar '\n']) :=
  (isRead_indentedAt 0 document).append isRead_lineFeed

/-! ### What is read -/

theorem wellFormedItems_append {items more : List Document} (first : WellFormedItems items)
    (second : WellFormedItems more) : WellFormedItems (items ++ more) := by
  induction items with
  | nil => exact second
  | cons item items inductionHypothesis => exact ⟨first.1, inductionHypothesis first.2⟩

theorem wellFormed_put {name : Text} {value : Document} {members : Members}
    (wellFormed : WellFormed (object members)) (isValue : WellFormed value) :
    WellFormed (object (Table.put name value members)) := by
  refine ⟨Table.nodup_keys_put name value wellFormed.1, ?_⟩
  have each := wellFormed.2
  clear wellFormed
  induction members with
  | nil => exact ⟨isValue, trivial⟩
  | cons member members inductionHypothesis =>
    rw [Table.put]
    split
    · exact ⟨isValue, each.2⟩
    · exact ⟨each.1, inductionHypothesis each.2⟩

/-- A value that is a token is well formed. -/
def Token.WellFormed : Token → Prop
  | .scalar value => Document.WellFormed value
  | _ => True

theorem wellFormed_of_word? {text after : Text} {value : Document}
    (found : word? text = some (value, after)) : WellFormed value := by
  obtain ⟨⟨word, meaning⟩, member, rest⟩ := List.exists_of_findSome?_eq_some found
  obtain ⟨_, -, same⟩ := Option.map_eq_some_iff.1 rest
  cases same
  simp only [words, List.mem_cons, Prod.mk.injEq, List.not_mem_nil, or_false] at member
  rcases member with ⟨-, rfl⟩ | ⟨-, rfl⟩ | ⟨-, rfl⟩ | ⟨-, rfl⟩ | ⟨-, rfl⟩ | ⟨-, rfl⟩ <;> trivial

theorem wellFormed_of_numeral? {negative : Bool} {text after : Text} {token : Token}
    (found : numeral? negative text = some (token, after)) : token.WellFormed := by
  obtain ⟨⟨whole, rest⟩, -, found⟩ := Option.bind_eq_some_iff.1 found
  dsimp only at found
  split at found
  · cases found
    unfold integerToken
    dsimp only
    split <;> trivial
  · cases found
    trivial

theorem wellFormed_of_token? {text after : Text} {token : Token}
    (found : token? text = some (token, after)) : token.WellFormed := by
  unfold token? at found
  split at found
  iterate 7 cases found <;> trivial
  · obtain ⟨_, -, same⟩ := Option.map_eq_some_iff.1 found
    cases same
    trivial
  · split at found
    · next isWord =>
      cases found
      exact wellFormed_of_word? isWord
    · exact wellFormed_of_numeral? found

theorem wellFormed_of_mem_tokensWithin {length : Nat} {text : Text} {token : Token}
    (member : token ∈ tokensWithin length text) : token.WellFormed := by
  induction length generalizing text with
  | zero =>
    unfold tokensWithin at member
    split at member
    · cases member
    · rw [List.mem_singleton.1 member]
      trivial
  | succ length inductionHypothesis =>
    unfold tokensWithin at member
    split at member
    · cases member
    · split at member
      · rw [List.mem_singleton.1 member]
        trivial
      · next found =>
        rcases List.mem_cons.1 member with rfl | later
        · exact wellFormed_of_token? found
        · exact inductionHypothesis later

/-- What has been read of an array or object that is still open is well formed. -/
def Frame.WellFormed : Frame → Prop
  | .array items => WellFormedItems items
  | .object members _ => Document.WellFormed (.object members)

/-- What has been read of the value that comes next is well formed. -/
def Expectation.WellFormed : Expectation → Prop
  | .name members | .colon members _ => Document.WellFormed (.object members)
  | .afterValue document => Document.WellFormed document
  | _ => True

/-- All that has been read is well formed. -/
structure Building.WellFormed (building : Building) : Prop where
  expectation : building.expectation.WellFormed
  frames : ∀ frame ∈ building.frames, frame.WellFormed

theorem Building.WellFormed.outer {building : Building} (wellFormed : building.WellFormed)
    {frame : Frame} {outer : List Frame} (frames : building.frames = frame :: outer) :
    frame.WellFormed ∧ ∀ other ∈ outer, other.WellFormed := by
  have areFrames := wellFormed.frames
  rw [frames] at areFrames
  exact List.forall_mem_cons.1 areFrames

theorem Building.WellFormed.closed {building : Building} (wellFormed : building.WellFormed)
    {value : Document} (afterValue : building.expectation = .afterValue value) :
    Document.WellFormed value := by
  have isExpectation := wellFormed.expectation
  rw [afterValue] at isExpectation
  exact isExpectation

theorem wellFormed_of_enter {building after : Building} {expectation : Expectation}
    {frames : List Frame} (isExpectation : expectation.WellFormed)
    (areFrames : ∀ frame ∈ frames, frame.WellFormed)
    (entered : building.enter expectation frames = .ok after) : after.WellFormed := by
  unfold Building.enter at entered
  split at entered
  · cases entered
  · cases entered
    exact ⟨isExpectation, areFrames⟩

theorem wellFormed_of_comma {building after : Building} (wellFormed : building.WellFormed)
    {value : Document} (afterValue : building.expectation = .afterValue value)
    (stepped : building.step .comma = .ok after) : after.WellFormed := by
  have isValue := wellFormed.closed afterValue
  simp only [Building.step, afterValue] at stepped
  split at stepped
  · next items outer frames =>
    cases stepped
    obtain ⟨areItems, others⟩ := wellFormed.outer frames
    exact ⟨trivial, List.forall_mem_cons.2 ⟨wellFormedItems_append areItems ⟨isValue, trivial⟩,
      others⟩⟩
  · next members name outer frames =>
    cases stepped
    obtain ⟨areMembers, others⟩ := wellFormed.outer frames
    exact ⟨wellFormed_put areMembers isValue, others⟩
  · cases stepped

theorem wellFormed_of_closeArray {building after : Building} (wellFormed : building.WellFormed)
    (stepped : building.step .closeArray = .ok after) : after.WellFormed := by
  cases expectation : building.expectation with
  | firstItem =>
    simp only [Building.step, expectation] at stepped
    split at stepped
    · next items outer frames =>
      cases stepped
      exact ⟨(wellFormed.outer frames).1, (wellFormed.outer frames).2⟩
    · cases stepped
  | afterValue value =>
    simp only [Building.step, expectation] at stepped
    split at stepped
    · next items outer frames =>
      cases stepped
      obtain ⟨areItems, others⟩ := wellFormed.outer frames
      exact ⟨wellFormedItems_append areItems ⟨wellFormed.closed expectation, trivial⟩, others⟩
    · cases stepped
  | _ =>
    simp only [Building.step, expectation] at stepped
    cases stepped

theorem wellFormed_of_closeObject {building after : Building} (wellFormed : building.WellFormed)
    (stepped : building.step .closeObject = .ok after) : after.WellFormed := by
  cases expectation : building.expectation with
  | firstName =>
    simp only [Building.step, expectation] at stepped
    cases stepped
    exact ⟨⟨List.nodup_nil, trivial⟩, wellFormed.frames⟩
  | afterValue value =>
    simp only [Building.step, expectation] at stepped
    split at stepped
    · next members name outer frames =>
      cases stepped
      obtain ⟨areMembers, others⟩ := wellFormed.outer frames
      exact ⟨wellFormed_put areMembers (wellFormed.closed expectation), others⟩
    · cases stepped
  | _ =>
    simp only [Building.step, expectation] at stepped
    cases stepped

/-- Every token leads from what is well formed to what is well formed. -/
theorem wellFormed_of_step {building after : Building} {token : Token}
    (wellFormed : building.WellFormed) (isToken : token.WellFormed)
    (stepped : building.step token = .ok after) : after.WellFormed := by
  have isExpectation := wellFormed.expectation
  cases token with
  | openArray =>
    have entered : building.enter .firstItem (.array [] :: building.frames) = .ok after := by
      cases expectation : building.expectation <;> simp_all [Building.step]
    refine wellFormed_of_enter ?_ (List.forall_mem_cons.2 ⟨?_, wellFormed.frames⟩) entered
    · trivial
    · trivial
  | openObject =>
    have entered : building.enter .firstName building.frames = .ok after := by
      cases expectation : building.expectation <;> simp_all [Building.step]
    refine wellFormed_of_enter ?_ wellFormed.frames entered
    trivial
  | closeArray => exact wellFormed_of_closeArray wellFormed stepped
  | closeObject => exact wellFormed_of_closeObject wellFormed stepped
  | comma =>
    cases expectation : building.expectation with
    | afterValue value => exact wellFormed_of_comma wellFormed expectation stepped
    | _ =>
      simp only [Building.step, expectation] at stepped
      cases stepped
  | colon =>
    cases expectation : building.expectation with
    | colon members name =>
      simp only [Building.step, expectation] at stepped
      cases stepped
      rw [expectation] at isExpectation
      exact ⟨trivial, List.forall_mem_cons.2 ⟨isExpectation, wellFormed.frames⟩⟩
    | _ =>
      simp only [Building.step, expectation] at stepped
      cases stepped
  | text value =>
    cases expectation : building.expectation with
    | value | firstItem =>
      simp only [Building.step, expectation] at stepped
      cases stepped
      exact ⟨trivial, wellFormed.frames⟩
    | name members =>
      simp only [Building.step, expectation] at stepped
      cases stepped
      rw [expectation] at isExpectation
      exact ⟨isExpectation, wellFormed.frames⟩
    | firstName =>
      simp only [Building.step, expectation] at stepped
      cases stepped
      exact ⟨⟨List.nodup_nil, trivial⟩, wellFormed.frames⟩
    | _ =>
      simp only [Building.step, expectation] at stepped
      cases stepped
  | scalar value =>
    have finished : after = ⟨.afterValue value, building.frames⟩ := by
      cases expectation : building.expectation <;> simp_all [Building.step]
    rw [finished]
    exact ⟨isToken, wellFormed.frames⟩
  | oversized digits => cases expectation : building.expectation <;> simp_all [Building.step]
  | unreadable => cases expectation : building.expectation <;> simp_all [Building.step]

theorem wellFormed_of_build {tokens : List Token} {building : Building} {document : Document}
    (areTokens : ∀ token ∈ tokens, token.WellFormed) (wellFormed : building.WellFormed)
    (built : build tokens building = .ok document) : WellFormed document := by
  induction tokens generalizing building with
  | nil =>
    unfold build at built
    split at built
    · next expectation _ =>
      cases built
      exact wellFormed.closed expectation
    · cases built
  | cons token tokens inductionHypothesis =>
    obtain ⟨isToken, others⟩ := List.forall_mem_cons.1 areTokens
    unfold build at built
    split at built
    · next stepped =>
      exact inductionHypothesis others (wellFormed_of_step wellFormed isToken stepped) built
    · cases built

/-- No object in a document that was read names a member twice. -/
theorem wellFormed_of_read {text : Text} {document : Document}
    (found : read text = .ok document) : WellFormed document := by
  have start : Building.WellFormed ⟨.value, []⟩ :=
    ⟨trivial, fun _ member => absurd member List.not_mem_nil⟩
  exact wellFormed_of_build (fun _ member => wellFormed_of_mem_tokensWithin member) start found

/-! ### What equals an object -/

theorem depth_le_depthOfMembers {name : Text} {value : Document} {members : Members}
    (found : Table.find? name members = some value) : value.depth ≤ depthOfMembers members := by
  induction members with
  | nil => cases found
  | cons member members inductionHypothesis =>
    obtain ⟨other, first⟩ := member
    rw [Table.find?] at found
    simp only [depthOfMembers]
    split at found
    · cases found
      exact Nat.le_max_left _ _
    · exact Nat.le_trans (inductionHypothesis found) (Nat.le_max_right _ _)

theorem exists_members_of_equals {document : Document} {members : Members}
    (same : document.equals (.object members) = true) :
    ∃ others, document = .object others := by
  cases document with
  | object others => exact ⟨others, rfl⟩
  | _ => cases same

mutual

theorem depth_le_of_equals : ∀ {left right : Document}, left.equals right = true →
    left.depth ≤ right.depth
  | array lefts, array rights, same => by
    have items : depthOfItems lefts ≤ depthOfItems rights := depthOfItems_le_of_equals same
    simp only [depth]
    omega
  | object lefts, object rights, same => by
    have members : depthOfMembers lefts ≤ depthOfMembers rights :=
      depthOfMembers_le_of_equals (Bool.and_eq_true_iff.1 same).2
    simp only [depth]
    omega
  | array _, null, same | array _, boolean _, same | array _, integer _, same
  | array _, number _, same | array _, string _, same | array _, object _, same => nomatch same
  | object _, null, same | object _, boolean _, same | object _, integer _, same
  | object _, number _, same | object _, string _, same | object _, array _, same => nomatch same
  | null, _, _ | boolean _, _, _ | integer _, _, _ | number _, _, _ | string _, _, _ =>
    Nat.zero_le _

theorem depthOfItems_le_of_equals : ∀ {lefts rights : List Document},
    equalsItems lefts rights = true → depthOfItems lefts ≤ depthOfItems rights
  | [], _, _ => Nat.zero_le _
  | _ :: _, [], same => nomatch same
  | left :: lefts, right :: rights, same => by
    obtain ⟨first, others⟩ := Bool.and_eq_true_iff.1 same
    have head := depth_le_of_equals first
    have tail := depthOfItems_le_of_equals others
    simp only [depthOfItems]
    omega

theorem depthOfMembers_le_of_equals : ∀ {lefts rights : Members},
    equalsMembers lefts rights = true → depthOfMembers lefts ≤ depthOfMembers rights
  | [], _, _ => Nat.zero_le _
  | (name, left) :: lefts, rights, same => by
    obtain ⟨first, others⟩ := Bool.and_eq_true_iff.1 same
    have tail := depthOfMembers_le_of_equals others
    split at first
    · next right found =>
      have head := depth_le_of_equals first
      have within := depth_le_depthOfMembers found
      simp only [depthOfMembers]
      omega
    · cases first

end

end Document

/-! ### Documents that are equal -/

namespace Table

variable {Key Value : Type} [DecidableEq Key] {table other : Table Key Value}

theorem mem_of_find? {key : Key} {value : Value} (found : find? key table = some value) :
    (key, value) ∈ table := by
  induction table with
  | nil => cases found
  | cons entry table inductionHypothesis =>
    rw [find?] at found
    split at found
    · next same =>
      cases found
      exact same ▸ List.mem_cons_self
    · exact List.mem_cons_of_mem _ (inductionHypothesis found)

variable (distinct : (keys table).Nodup)

include distinct

theorem find?_of_mem {entry : Key × Value} (member : entry ∈ table) :
    find? entry.1 table = some entry.2 := by
  induction table with
  | nil => exact absurd member List.not_mem_nil
  | cons first table inductionHypothesis =>
    obtain ⟨notLater, rest⟩ := List.nodup_cons.1 distinct
    rw [find?]
    rcases List.mem_cons.1 member with rfl | later
    · exact if_pos rfl
    · have different : first.1 ≠ entry.1 := fun same =>
        notLater (same ▸ List.mem_map_of_mem later)
      rw [if_neg different]
      exact inductionHypothesis rest later

/-- Tables in which the same is found under every key have as many entries. -/
theorem length_eq_of_find? (otherDistinct : (keys other).Nodup)
    (same : ∀ key, find? key table = find? key other) : table.length = other.length := by
  have keysPerm : (keys table).Perm (keys other) := by
    refine (List.perm_ext_iff_of_nodup distinct otherDistinct).2 fun key => ?_
    rw [← not_iff_not, ← find?_eq_none_iff, ← find?_eq_none_iff, same]
  have lengths := keysPerm.length_eq
  rwa [keys, keys, List.length_map, List.length_map] at lengths

end Table

namespace Document

theorem wellFormedMembers_iff {members : Members} :
    WellFormedMembers members ↔ ∀ entry ∈ members, WellFormed entry.2 := by
  induction members with
  | nil => exact iff_of_true trivial fun _ member => absurd member List.not_mem_nil
  | cons member members inductionHypothesis =>
    rw [List.forall_mem_cons, ← inductionHypothesis]
    rfl

/-- A comparison that goes through the members on the left looks for each of them on the right. -/
theorem eachMember_iff {related : Document → Document → Bool} {every : Members → Members → Bool}
    (ended : ∀ rights, every [] rights = true)
    (goesOn : ∀ left lefts rights, every (left :: lefts) rights =
      ((match Table.find? left.1 rights with
        | some right => related left.2 right
        | none => false) && every lefts rights))
    {lefts rights : Members} :
    every lefts rights = true ↔
      ∀ entry ∈ lefts, ∃ right, Table.find? entry.1 rights = some right ∧
        related entry.2 right = true := by
  induction lefts with
  | nil => exact iff_of_true (ended rights) fun _ member => absurd member List.not_mem_nil
  | cons left lefts inductionHypothesis =>
    rw [List.forall_mem_cons, ← inductionHypothesis, goesOn]
    refine Bool.and_eq_true_iff.trans (and_congr_left fun _ => ?_)
    cases Table.find? left.1 rights with
    | none => simp
    | some right => simp

theorem equalsMembers_iff {lefts rights : Members} :
    equalsMembers lefts rights = true ↔
      ∀ entry ∈ lefts, ∃ right, Table.find? entry.1 rights = some right ∧
        entry.2.equals right = true :=
  eachMember_iff (fun _ => rfl) fun _ _ _ => rfl

mutual

theorem equals_self : ∀ {document : Document}, WellFormed document →
    document.equals document = true
  | array _, wellFormed => equalsItems_self wellFormed
  | object members, wellFormed => by
    refine Bool.and_eq_true_iff.2 ⟨beq_self_eq_true _, equalsMembers_iff.2 fun entry member => ?_⟩
    exact ⟨entry.2, Table.find?_of_mem wellFormed.1 member,
      equals_self_of_mem wellFormed.2 entry member⟩
  | number value, _ => value.equals_self
  | string _, _ | integer _, _ | boolean _, _ => beq_self_eq_true _
  | null, _ => rfl

theorem equalsItems_self : ∀ {items : List Document}, WellFormedItems items →
    equalsItems items items = true
  | [], _ => rfl
  | _ :: _, wellFormed =>
    Bool.and_eq_true_iff.2 ⟨equals_self wellFormed.1, equalsItems_self wellFormed.2⟩

theorem equals_self_of_mem : ∀ {members : Members}, WellFormedMembers members →
    ∀ entry ∈ members, entry.2.equals entry.2 = true
  | [], _ => fun _ member => absurd member List.not_mem_nil
  | _ :: _, wellFormed =>
    List.forall_mem_cons.2 ⟨equals_self wellFormed.1, equals_self_of_mem wellFormed.2⟩

end

/-- Objects that have the same under every name are equal. -/
theorem equals_of_find? {lefts rights : Members} (wellFormed : WellFormed (object lefts))
    (distinct : (Table.keys rights).Nodup)
    (same : ∀ name, Table.find? name lefts = Table.find? name rights) :
    (object lefts).equals (object rights) = true := by
  have length := Table.length_eq_of_find? wellFormed.1 distinct same
  refine Bool.and_eq_true_iff.2 ⟨beq_iff_eq.2 length, equalsMembers_iff.2 fun entry member => ?_⟩
  have found := Table.find?_of_mem wellFormed.1 member
  exact ⟨entry.2, (same entry.1).symm.trans found,
    equals_self (wellFormedMembers_iff.1 wellFormed.2 entry member)⟩

end Document

end ShaderReduction
