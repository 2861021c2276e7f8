import Mathlib.Data.List.Pairwise
import Mathlib.Data.List.Nodup
import HeaderBook.Page
import HeaderBook.Proofs.PathNames

/-!
# Reading a page back

A page shows four texts inside a skeleton that never changes. Escaped text holds no
angle bracket, so the tags of a page are those of the skeleton, and no tag of the
skeleton begins with another. Each of the four texts is therefore found by searching
for the tag before it, and un-escaping gives it back.
-/

namespace HeaderBook

namespace CodeText

/-- No text of a list begins with another. -/
def PrefixFree (texts : List CodeText) : Prop :=
  texts.Pairwise fun first second => ¬ first <+: second ∧ ¬ second <+: first

instance (texts : List CodeText) : Decidable (PrefixFree texts) :=
  inferInstanceAs (Decidable (texts.Pairwise _))

/-- Texts of which none begins with another are distinct. -/
theorem PrefixFree.nodup {texts : List CodeText} (free : PrefixFree texts) : texts.Nodup := by
  refine List.Pairwise.imp ?_ free
  rintro first _ apart rfl
  exact apart.1 List.prefix_rfl

/-- A text begins with at most one text of the list. -/
theorem PrefixFree.eq_of_begins {texts : List CodeText} (free : PrefixFree texts)
    {first second text : CodeText} (firstListed : first ∈ texts) (secondListed : second ∈ texts)
    (begins : first <+: text) (begins' : second <+: text) : first = second := by
  have symmetric : Std.Symm fun first second : CodeText => ¬ first <+: second ∧ ¬ second <+: first :=
    ⟨fun _ _ apart => apart.symm⟩
  by_contra different
  obtain ⟨notFirst, notSecond⟩ := List.Pairwise.forall free firstListed secondListed different
  exact (List.prefix_or_prefix_of_prefix begins begins').elim notFirst notSecond

/-- Cuts a text at the first place where `mark` stands: what is before it and what is
after it. -/
def cut? (mark : CodeText) : CodeText → Option (CodeText × CodeText)
  | [] => if mark = [] then some ([], []) else none
  | code :: rest =>
    if mark <+: code :: rest then
      some ([], (code :: rest).drop mark.length)
    else
      (cut? mark rest).map fun (before, after) => (code :: before, after)

/-- The text between the first `start` and the next `stop` after it. -/
def between? (start stop text : CodeText) : Option CodeText := do
  let (_, after) ← cut? start text
  let (inner, _) ← cut? stop after
  return inner

/-- A text that begins with the mark is cut there. -/
theorem cut?_append (mark after : CodeText) : cut? mark (mark ++ after) = some ([], after) := by
  cases equal : mark ++ after with
  | nil =>
      obtain ⟨rfl, rfl⟩ := List.append_eq_nil_iff.mp equal
      rfl
  | cons code rest => rw [cut?, if_pos (equal ▸ List.prefix_append mark after), ← equal, List.drop_left]

/-- A text is cut where `mark` stands if it stands nowhere else. -/
theorem cut?_of_unique {mark before after : CodeText}
    (unique : ∀ earlier, earlier ++ mark <+: before ++ mark ++ after → earlier = before) :
    cut? mark (before ++ mark ++ after) = some (before, after) := by
  induction before with
  | nil => exact cut?_append mark after
  | cons code before inductionHypothesis =>
      have notHere : ¬ mark <+: code :: (before ++ mark ++ after) := fun begins =>
        List.cons_ne_nil _ _ (unique [] begins).symm
      have later : cut? mark (before ++ mark ++ after) = some (before, after) := by
        refine inductionHypothesis fun earlier stands => ?_
        exact List.cons.inj (unique (code :: earlier) (List.cons_prefix_cons.mpr ⟨rfl, stands⟩)) |>.2
      rw [List.cons_append, List.cons_append, cut?, if_neg notHere, later]
      rfl

/-- A text is cut at the first `mark` if the first code of `mark` does not stand before it. -/
theorem cut?_of_not_mem {code : CodePoint} {mark before : CodeText} (first : mark.head? = some code)
    (free : code ∉ before) (after : CodeText) :
    cut? mark (before ++ mark ++ after) = some (before, after) := by
  induction before with
  | nil => exact cut?_append mark after
  | cons other before inductionHypothesis =>
      obtain ⟨more, rfl⟩ := List.head?_eq_some_iff.mp first
      rw [List.mem_cons, not_or] at free
      have notHere : ¬ code :: more <+: other :: (before ++ (code :: more) ++ after) := fun begins =>
        free.1 (List.cons_prefix_cons.mp begins).1
      rw [List.cons_append, List.cons_append, cut?, if_neg notHere, inductionHypothesis free.2]
      rfl

end CodeText

namespace Markup

/-! ### Character references -/

/-- The character references that escaping writes, with what they stand for. -/
def references : List (CodeText × CodePoint) :=
  [(codes "&lt;", '<'), (codes "&gt;", '>'), (codes "&amp;", '&'), (codes "&quot;", '"'),
    (codes "&#x27;", '\'')]

/-- Reads every character reference of a text, left to right. -/
def unescape : CodeText → CodeText
  | [] => []
  | code :: rest =>
    match references.find? fun reference => reference.1 <+: code :: rest with
    | some (written, meant) => meant :: unescape (rest.drop (written.length - 1))
    | none => code :: unescape rest
termination_by text => text.length
decreasing_by
  · simp only [List.length_drop, List.length_cons]
    omega
  · simp

/-- A code point other than an ampersand stands for itself. -/
theorem unescape_of_ne {code : CodePoint} (plain : code ≠ '&') (rest : CodeText) :
    unescape (code :: rest) = code :: unescape rest := by
  have missing : (references.find? fun reference => reference.1 <+: code :: rest) = none := by
    rw [List.find?_eq_none]
    simp [references, codes, CodeText.ofText, Ne.symm plain]
  rw [unescape, missing]

/-- No reference begins with another. -/
theorem prefixFree_references : CodeText.PrefixFree (references.map Prod.fst) := by
  decide

/-- A reference is read as the code point that it stands for. -/
theorem unescape_reference {written : CodeText} {meant : CodePoint}
    (listed : (written, meant) ∈ references) (rest : CodeText) :
    unescape (written ++ rest) = meant :: unescape rest := by
  have nonempty : ∀ reference ∈ references, reference.1 ≠ [] := by
    simp [references, codes, CodeText.ofText]
  obtain ⟨code, more, rfl⟩ := List.exists_cons_of_ne_nil (nonempty _ listed)
  have found : (references.find? fun reference => reference.1 <+: code :: (more ++ rest)) =
      some (code :: more, meant) := by
    have begins : code :: more <+: code :: (more ++ rest) := List.prefix_append _ _
    cases search : references.find? fun reference => reference.1 <+: code :: (more ++ rest) with
    | none => exact absurd begins (by simpa using List.find?_eq_none.mp search _ listed)
    | some reference =>
        have listed' : reference ∈ references := List.mem_of_find?_eq_some search
        have begins' : reference.1 <+: code :: (more ++ rest) := by simpa using List.find?_some search
        have same := prefixFree_references.eq_of_begins (List.mem_map_of_mem listed')
          (List.mem_map_of_mem listed) begins' begins
        rw [List.inj_on_of_nodup_map prefixFree_references.nodup listed' listed same]
  rw [List.cons_append, unescape, found]
  simp

/-- An escaping that writes the codes in `special` as references and keeps all others. -/
structure Escaping (escape : CodePoint → CodeText) (special : List CodePoint) : Prop where
  spelled : ∀ code ∈ special, (escape code, code) ∈ references
  kept : ∀ code ∉ special, escape code = [code]

/-- In content three code points are written as references. -/
theorem escaping_content : Escaping escapeContentCode ['&', '<', '>'] where
  spelled := by
    simp [escapeContentCode, references]
  kept code plain := by
    simp only [List.mem_cons, List.not_mem_nil, not_or] at plain
    simp [escapeContentCode, plain]

/-- In attributes five code points are written as references. -/
theorem escaping_attribute : Escaping escapeAttributeCode ['"', '\'', '&', '<', '>'] where
  spelled := by
    simp [escapeAttributeCode, escapeContentCode, references]
  kept code plain := by
    simp only [List.mem_cons, List.not_mem_nil, not_or] at plain
    simp [escapeAttributeCode, escapeContentCode, plain]

namespace Escaping

variable {escape : CodePoint → CodeText} {special : List CodePoint}

/-- Un-escaping gives a text back if its ampersands are escaped. -/
theorem unescape_flatMap (escaping : Escaping escape special) (ampersand : CodePoint.char '&' ∈ special)
    (text : CodeText) : unescape (text.flatMap escape) = text := by
  induction text with
  | nil => rw [List.flatMap_nil, unescape]
  | cons code text inductionHypothesis =>
      rw [List.flatMap_cons]
      by_cases isSpecial : code ∈ special
      · rw [unescape_reference (escaping.spelled code isSpecial), inductionHypothesis]
      · have plain : code ≠ '&' := fun equal => isSpecial (equal ▸ ampersand)
        rw [escaping.kept code isSpecial, List.singleton_append, unescape_of_ne plain,
          inductionHypothesis]

/-- An escaped text does not hold a code that is escaped and stands in no reference. -/
theorem not_mem_flatMap (escaping : Escaping escape special) {code : CodePoint}
    (isSpecial : code ∈ special) (unused : ∀ reference ∈ references, code ∉ reference.1)
    (text : CodeText) : code ∉ text.flatMap escape := by
  rw [List.mem_flatMap]
  rintro ⟨other, _, inside⟩
  by_cases spelled : other ∈ special
  · exact unused _ (escaping.spelled other spelled) inside
  · rw [escaping.kept other spelled, List.mem_singleton] at inside
    exact spelled (inside ▸ isSpecial)

end Escaping

/-- The bracket before every tag. -/
def angle : CodePoint := '<'

/-- The quote around every attribute's value. -/
def quote : CodePoint := '"'

/-- The texts of the references hold no angle bracket and no quote. -/
theorem not_mem_reference : ∀ reference ∈ references, angle ∉ reference.1 ∧ quote ∉ reference.1 := by
  simp [references, codes, CodeText.ofText, angle, quote]

/-- Escaped content is read back. -/
theorem unescape_escapeContent (text : CodeText) : unescape (escapeContent text) = text :=
  escaping_content.unescape_flatMap (by simp) text

/-- An escaped attribute is read back. -/
theorem unescape_escapeAttribute (text : CodeText) : unescape (escapeAttribute text) = text :=
  escaping_attribute.unescape_flatMap (by simp) text

/-- Escaped content holds no angle bracket that opens a tag. -/
theorem angle_not_mem_escapeContent (text : CodeText) : angle ∉ escapeContent text :=
  escaping_content.not_mem_flatMap (by simp [angle])
    (fun _ listed => (not_mem_reference _ listed).1) text

/-- An escaped attribute holds no angle bracket that opens a tag. -/
theorem angle_not_mem_escapeAttribute (text : CodeText) : angle ∉ escapeAttribute text :=
  escaping_attribute.not_mem_flatMap (by simp [angle])
    (fun _ listed => (not_mem_reference _ listed).1) text

/-- An escaped attribute holds no quote, so the next one ends it. -/
theorem quote_not_mem_escapeAttribute (text : CodeText) : quote ∉ escapeAttribute text :=
  escaping_attribute.not_mem_flatMap (by simp [quote])
    (fun _ listed => (not_mem_reference _ listed).2) text

/-! ### Tags -/

/-- A tag without its angle bracket: how it begins, and what stands from there up to the
next tag. -/
abbrev TagText := CodeText × CodeText

/-- The markup of tags. -/
def writeTags (tags : List TagText) : CodeText :=
  tags.flatMap fun tag => angle :: (tag.1 ++ tag.2)

/-- Tags that can be told apart by their beginnings, with no angle bracket inside. -/
structure Apart (tags : List TagText) : Prop where
  beginnings : CodeText.PrefixFree (tags.map Prod.fst)
  clear : ∀ tag ∈ tags, angle ∉ tag.1 ++ tag.2

theorem writeTags_cons (tag : TagText) (tags : List TagText) :
    writeTags (tag :: tags) = angle :: (tag.1 ++ tag.2 ++ writeTags tags) :=
  rfl

/-- Markup is cut at its angle brackets into its tags. -/
theorem split_writeTags {tags : List TagText} (clear : ∀ tag ∈ tags, angle ∉ tag.1 ++ tag.2) :
    Text.split angle (writeTags tags) = [] :: tags.map fun tag => tag.1 ++ tag.2 := by
  induction tags with
  | nil => rfl
  | cons tag tags inductionHypothesis =>
      rw [List.forall_mem_cons] at clear
      rw [writeTags_cons, Text.split, if_pos rfl]
      cases tags with
      | nil =>
          rw [writeTags, List.flatMap_nil, List.append_nil, Text.split_of_not_mem clear.1]
          rfl
      | cons next tags =>
          have later := inductionHypothesis clear.2
          rw [writeTags_cons, Text.split, if_pos rfl, List.cons.injEq] at later
          rw [writeTags_cons, Text.split_append clear.1, later.2]
          rfl

/-- A mark that begins with an angle bracket stands after text without any. -/
theorem exists_append_of_stands {clear before mark rest : CodeText} (free : angle ∉ clear)
    (stands : before ++ angle :: mark <+: clear ++ rest) :
    ∃ later, before = clear ++ later ∧ later ++ angle :: mark <+: rest := by
  induction clear generalizing before with
  | nil => exact ⟨before, rfl, stands⟩
  | cons code clear inductionHypothesis =>
      rw [List.mem_cons, not_or] at free
      cases before with
      | nil => exact absurd (List.cons_prefix_cons.mp stands).1 free.1
      | cons first before =>
          obtain ⟨rfl, further⟩ := List.cons_prefix_cons.mp stands
          obtain ⟨later, rfl, inRest⟩ := inductionHypothesis free.2 further
          exact ⟨later, rfl, inRest⟩

/-- A mark without angle brackets ends before the first tag. -/
theorem begins_of_append_writeTags {mark clear : CodeText} {tags : List TagText} (free : angle ∉ mark)
    (begins : mark <+: clear ++ writeTags tags) : mark <+: clear := by
  rcases List.prefix_or_prefix_of_prefix begins (List.prefix_append clear _) with shorter | ⟨more, rfl⟩
  · exact shorter
  · cases tags with
    | nil => simpa [writeTags] using begins
    | cons tag tags =>
        rw [List.prefix_append_right_inj, writeTags_cons] at begins
        cases more with
        | nil => simp
        | cons code more =>
            obtain ⟨rfl, _⟩ := List.cons_prefix_cons.mp begins
            exact absurd (List.mem_append_right clear List.mem_cons_self) free

/-- Where a mark that begins with an angle bracket stands, a tag begins. -/
theorem exists_tag_of_stands {tags : List TagText} (clear : ∀ tag ∈ tags, angle ∉ tag.1 ++ tag.2)
    {before mark : CodeText} (free : angle ∉ mark)
    (stands : before ++ angle :: mark <+: writeTags tags) :
    ∃ left tag right, tags = left ++ tag :: right ∧ before = writeTags left ∧
      mark <+: tag.1 ++ tag.2 := by
  induction tags generalizing before with
  | nil => simp [writeTags] at stands
  | cons tag tags inductionHypothesis =>
      rw [List.forall_mem_cons] at clear
      rw [writeTags_cons] at stands
      cases before with
      | nil =>
          have begins := (List.cons_prefix_cons.mp stands).2
          exact ⟨[], tag, tags, rfl, rfl, begins_of_append_writeTags free begins⟩
      | cons first before =>
          obtain ⟨rfl, further⟩ := List.cons_prefix_cons.mp stands
          obtain ⟨later, rfl, inTags⟩ := exists_append_of_stands clear.1 further
          obtain ⟨left, found, right, rfl, rfl, begins⟩ := inductionHypothesis clear.2 inTags
          exact ⟨tag :: left, found, right, rfl, rfl, begins⟩

namespace Apart

variable {left right : List TagText} {tag : TagText}

/-- The beginning of a tag stands nowhere but at the tag. -/
theorem eq_of_stands (apart : Apart (left ++ tag :: right)) {before : CodeText}
    (stands : before ++ angle :: tag.1 <+: writeTags (left ++ tag :: right)) :
    before = writeTags left := by
  have listed : tag ∈ left ++ tag :: right := by simp
  have free : angle ∉ tag.1 := fun inside => apart.clear tag listed (List.mem_append_left _ inside)
  obtain ⟨left', tag', right', split, rfl, begins⟩ := exists_tag_of_stands apart.clear free stands
  have listed' : tag' ∈ left ++ tag :: right := by simp [split]
  have same : tag = tag' :=
    List.inj_on_of_nodup_map apart.beginnings.nodup listed listed'
      (apart.beginnings.eq_of_begins (List.mem_map_of_mem listed) (List.mem_map_of_mem listed') begins
        (List.prefix_append _ _))
  subst same
  have nodup : (left ++ tag :: right).Nodup := apart.beginnings.nodup.of_map
  rw [List.nodup_append, List.nodup_cons] at nodup
  have notLeft : tag ∉ left := fun inside => nodup.2.2 tag inside tag List.mem_cons_self rfl
  rw [((List.append_cons_inj_of_notMem notLeft nodup.2.1.1).mp split).1]

/-- Searching for the beginning of a tag leads to the tag. -/
theorem cut?_writeTags (apart : Apart (left ++ tag :: right)) :
    CodeText.cut? (angle :: tag.1) (writeTags (left ++ tag :: right)) =
      some (writeTags left, tag.2 ++ writeTags right) := by
  have whole : writeTags (left ++ tag :: right) =
      writeTags left ++ (angle :: tag.1) ++ (tag.2 ++ writeTags right) := by
    simp [writeTags]
  rw [whole]
  refine CodeText.cut?_of_unique fun earlier stands => ?_
  rw [← whole] at stands
  exact apart.eq_of_stands stands

end Apart

end Markup

namespace Page

open Markup

/-- The tags of a page. -/
def tags (page : Page) (content : CodeText) : List TagText :=
  [(codes "!DOCTYPE html>\n", []),
    (codes "html lang=\"", escapeAttribute page.language ++ codes "\">\n"),
    (codes "head>", []),
    (codes "meta charset=\"", escapeAttribute page.charset ++ codes "\">"),
    (codes "title>", escapeContent page.title), (codes "/title>", []),
    (codes "/head>\n", []),
    (codes "body>", []),
    (codes "pre>", escapeContent content), (codes "/pre>", []),
    (codes "/body>\n", []),
    (codes "/html>\n", [])]

/-- The tags of a page can be told apart whatever it shows. -/
theorem apart_tags (page : Page) (content : CodeText) : Apart (page.tags content) where
  beginnings := by
    have skeleton : CodeText.PrefixFree [codes "!DOCTYPE html>\n", codes "html lang=\"", codes "head>",
        codes "meta charset=\"", codes "title>", codes "/title>", codes "/head>\n", codes "body>",
        codes "pre>", codes "/pre>", codes "/body>\n", codes "/html>\n"] := by decide
    exact skeleton
  clear := by
    simp only [tags, List.forall_mem_cons, List.mem_append, not_or, angle_not_mem_escapeContent,
      angle_not_mem_escapeAttribute, List.not_mem_nil, IsEmpty.forall_iff, implies_true,
      not_false_eq_true, true_and, and_true]
    decide

/-- A page is written as its tags, one after another. -/
theorem text_eq_writeTags (page : Page) (content : CodeText) :
    page.text content = writeTags (page.tags content) := by
  have rendered (key : Text) (value : CodeText) : (⟨key, .text value⟩ : Attribute).render =
      CodePoint.char ' ' :: (CodeText.ofText (Attribute.name key) ++
        (codes "=\"" ++ (escapeAttribute value ++ codes "\""))) := by
    simp [Attribute.render]
  simp only [text, parts, List.flatMap_cons, List.flatMap_nil, List.nil_append,
    List.append_assoc, List.cons_append, Part.render, rendered, writeTags, tags]
  rfl

/-- The four texts of a page. -/
structure Texts where
  language : CodeText
  charset : CodeText
  title : CodeText
  content : CodeText
  deriving DecidableEq, Repr

/-- The page that shows the texts, not yet rendered. -/
def Texts.page (texts : Texts) : Page :=
  ⟨texts.title, texts.language, texts.charset, false⟩

/-- Reads the texts of a page: each stands between its place in the skeleton and the end
of that place, and is un-escaped. -/
def decode? (markup : CodeText) : Option Texts := do
  let language ← CodeText.between? (codes "<html lang=\"") (codes "\">") markup
  let charset ← CodeText.between? (codes "<meta charset=\"") (codes "\">") markup
  let title ← CodeText.between? (codes "<title>") (codes "</title>") markup
  let content ← CodeText.between? (codes "<pre>") (codes "</pre>") markup
  return ⟨unescape language, unescape charset, unescape title, unescape content⟩

variable (page : Page) (content : CodeText)

/-- What follows the beginning of a tag, up to a mark, is found by searching for the tag. -/
theorem between?_text {position : Nat} {beginning follows : CodeText}
    (listed : (page.tags content)[position]? = some (beginning, follows))
    {start stop shown after : CodeText} (starts : start = angle :: beginning) {code : CodePoint}
    (stops : stop.head? = some code) (free : code ∉ shown)
    (goesOn : follows ++ writeTags ((page.tags content).drop (position + 1)) = shown ++ stop ++ after) :
    CodeText.between? start stop (page.text content) = some shown := by
  have split : page.tags content = (page.tags content).take position ++
      (beginning, follows) :: (page.tags content).drop (position + 1) := by
    obtain ⟨inside, equal⟩ := List.getElem?_eq_some_iff.mp listed
    rw [← equal]
    simp
  have apart := page.apart_tags content
  rw [split] at apart
  rw [CodeText.between?, text_eq_writeTags, split, starts, apart.cut?_writeTags, goesOn]
  simp only [Option.bind_eq_bind, Option.bind_some, CodeText.cut?_of_not_mem stops free]
  rfl

/-- The language of a page stands in its first tag, and nowhere before it. -/
theorem between?_language :
    CodeText.between? (codes "<html lang=\"") (codes "\">") (page.text content) =
      some (escapeAttribute page.language) := by
  have listed : (page.tags content)[1]? =
      some (codes "html lang=\"", escapeAttribute page.language ++ codes "\">\n") := rfl
  have goesOn : escapeAttribute page.language ++ codes "\">\n" ++
        writeTags ((page.tags content).drop 2) =
      escapeAttribute page.language ++ codes "\">" ++
        (codes "\n" ++ writeTags ((page.tags content).drop 2)) := by
    simp only [List.append_assoc]
    rfl
  exact page.between?_text content listed (by decide) (by decide)
    (quote_not_mem_escapeAttribute page.language) goesOn

/-- The character set of a page stands between its own marks. -/
theorem between?_charset :
    CodeText.between? (codes "<meta charset=\"") (codes "\">") (page.text content) =
      some (escapeAttribute page.charset) := by
  have listed : (page.tags content)[3]? =
      some (codes "meta charset=\"", escapeAttribute page.charset ++ codes "\">") := rfl
  exact page.between?_text content listed (by decide) (by decide)
    (quote_not_mem_escapeAttribute page.charset) rfl

/-- The title of a page stands between its own marks. -/
theorem between?_title :
    CodeText.between? (codes "<title>") (codes "</title>") (page.text content) =
      some (escapeContent page.title) := by
  have listed : (page.tags content)[4]? = some (codes "title>", escapeContent page.title) := rfl
  have goesOn : escapeContent page.title ++ writeTags ((page.tags content).drop 5) =
      escapeContent page.title ++ codes "</title>" ++ writeTags ((page.tags content).drop 6) := by
    rw [List.append_assoc]
    rfl
  exact page.between?_text content listed (by decide) (by decide)
    (angle_not_mem_escapeContent page.title) goesOn

/-- The content of a page stands between its own marks. -/
theorem between?_content :
    CodeText.between? (codes "<pre>") (codes "</pre>") (page.text content) =
      some (escapeContent content) := by
  have listed : (page.tags content)[8]? = some (codes "pre>", escapeContent content) := rfl
  have goesOn : escapeContent content ++ writeTags ((page.tags content).drop 9) =
      escapeContent content ++ codes "</pre>" ++ writeTags ((page.tags content).drop 10) := by
    rw [List.append_assoc]
    rfl
  exact page.between?_text content listed (by decide) (by decide)
    (angle_not_mem_escapeContent content) goesOn

/-- A page is read back from its text. -/
theorem decode?_text : decode? (page.text content) =
    some ⟨page.language, page.charset, page.title, content⟩ := by
  simp only [decode?, between?_language, between?_charset, between?_title, between?_content,
    Option.bind_eq_bind, Option.bind_some, Option.pure_def, unescape_escapeAttribute,
    unescape_escapeContent]

/-- Only one place of a page opens its preformatted block. -/
theorem existsUnique_pre : ∃! before, before ++ codes "<pre>" <+: page.text content := by
  have split : page.tags content = (page.tags content).take 8 ++
      (codes "pre>", escapeContent content) :: (page.tags content).drop 9 := rfl
  have apart := page.apart_tags content
  rw [split] at apart
  rw [text_eq_writeTags, split]
  refine ⟨writeTags ((page.tags content).take 8), ?_, fun before stands => apart.eq_of_stands stands⟩
  rw [writeTags, List.flatMap_append]
  exact List.prefix_append_right_inj _ |>.mpr ⟨_, rfl⟩

/-- The text of a page is complete: it ends with the closing tag. -/
theorem end_suffix_text : codes "</html>\n" <:+ page.text content := by
  rw [text_eq_writeTags, ← List.take_append_drop 11 (page.tags content), writeTags, List.flatMap_append]
  exact List.suffix_append _ _

/-- A new page renders any four texts, and nothing in them breaks out of their places: the
markup is read back to the texts, so it belongs to no others; its angle brackets are those of
the skeleton, its block is opened once, and it ends with the root element and one line break. -/
theorem decode?_render (texts : Texts) :
    ∃ markup, (texts.page.render texts.content).1 = .ok markup ∧
      decode? markup = some texts ∧
      (∀ other : Texts, (other.page.render other.content).1 = .ok markup → other = texts) ∧
      Text.split angle markup =
        [] :: (texts.page.tags texts.content).map (fun tag => tag.1 ++ tag.2) ∧
      (∃! before, before ++ codes "<pre>" <+: markup) ∧
      codes "</html>\n" <:+ markup := by
  have rendered (texts : Texts) : (texts.page.render texts.content).1 =
      .ok (texts.page.text texts.content) := rfl
  refine ⟨texts.page.text texts.content, rendered texts, decode?_text _ _, ?_, ?_,
    existsUnique_pre _ _, end_suffix_text _ _⟩
  · intro other same
    have equal := congrArg decode? (Except.ok.inj ((rendered other).symm.trans same))
    rw [decode?_text, decode?_text] at equal
    exact Option.some.inj equal
  · rw [text_eq_writeTags, split_writeTags (apart_tags _ _).clear]

end Page
end HeaderBook
