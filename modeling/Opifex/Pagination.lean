import Opifex.GitHubHttp
import Opifex.Lib.Parts
import Opifex.Lib.Scanning

/-!
# Following the pages of a listing

GitHub sends a long listing in pages, each with a `Link` header that names the next.
The loop follows the header up to a bound and says when it stopped short.

The header is parsed by splitting it at the commas between its links, and a comma may
stand in a URL too. Such a link is not seen: the listing ends there, and is reported as
complete (`stops_at_a_comma`). Where no URL that is followed has a comma, all pages
are returned up to the bound, whichever of them are answered from the store
(`paginates_iff`).
-/

namespace Opifex

open Pattern

/-! ## The Link header -/

/-- `/<([^>]+)>\s*;\s*rel="next"/`. -/
def nextLinkPattern : Pattern :=
  all [text "<", group 1 (many1 (noneOf ">")), text ">", many space, text ";", many space,
    text "rel=\"next\""]

/-- The URL of a link, where its relation is `next`. -/
def nextLinkIn (part : String) : Option String :=
  (nextLinkPattern.search [] part.toList).map fun found => found.2.captured 1

/-- The URL of the page after this one, read out of the `Link` header. The header is cut
at every comma, also at one inside a URL. -/
def parseNextLink : Option String → Option String
  | none => none
  | some link =>
    if Text.truthy link then (Text.split ',' link).findSome? nextLinkIn else none

/-! ## The loop -/

/-- What a listing answers: the items in the order of the pages, how many pages were
read, and whether the bound on them was met. -/
structure Paginated (α : Type*) where
  items : List α
  pages : ℕ
  truncated : Bool
  allFromCache : Bool

/-- The default of `extract`. -/
def arrayItems : JsonValue → List JsonValue
  | .arr items => items
  | _ => []

section Loop

variable {α : Type*} (network : Network) (settings : GitHubHttpSettings) (urls : UrlStandard)

/-- A request for the URL of a page. What is under the base URL is asked for by its
path, and the query of the first page is not added again. -/
def requestAbsolute (url : String) (options : GitHubRequestOptions) (client : GitHubClient) :
    Except HttpFailure GitHubResponse × GitHubClient :=
  let path :=
    if Text.startsWith url settings.baseUrl then
      Text.slice settings.baseUrl.toList.length url
    else url
  settings.request network urls path { options with query := [] } client

/-- The loop, while so many more pages are allowed. -/
def followPages (options : GitHubRequestOptions) (extract : JsonValue → List α) :
    (left : ℕ) → (next : Option String) → Paginated α → GitHubClient →
    Except HttpFailure (Paginated α) × GitHubClient
  | 0, next, read, client => (.ok { read with truncated := next.isSome }, client)
  | left + 1, next, read, client =>
    match next.filter Text.truthy with
    | none => (.ok { read with truncated := next.isSome }, client)
    | some url =>
      match requestAbsolute network settings urls url options client with
      | (.error failure, client) => (.error failure, client)
      | (.ok response, client) =>
        followPages options extract left (parseNextLink response.link)
          { read with
            items := read.items ++ extract response.data
            pages := read.pages + 1
            allFromCache := read.allFromCache && response.fromCache }
          client

/-- `paginate`. -/
def paginate (path : String) (options : GitHubRequestOptions) (perPage maxPages : ℕ)
    (extract : JsonValue → List α) (client : GitHubClient) :
    Except HttpFailure (Paginated α) × GitHubClient :=
  match buildUrl settings urls path (options.query ++ [("per_page", toString perPage)]) with
  | none => (.error .invalidUrl, client)
  | some first =>
    followPages network settings urls options extract maxPages (some first)
      ⟨[], 0, false, true⟩ client

end Loop

/-! ## A chain of pages -/

/-- A link of a header, as it may be written: blanks may stand at its ends and at its
semicolon. -/
structure LinkValue where
  url : String
  relation : String
  before : String
  after : String
  first : String
  last : String

/-- A link as it stands in the header. -/
def LinkValue.text (link : LinkValue) : String :=
  link.first ++ "<" ++ link.url ++ ">" ++ link.before ++ ";" ++ link.after ++ "rel=\"" ++
    link.relation ++ "\"" ++ link.last

/-- A relation is one word, and no URL has a closing bracket in it: what the header's
own grammar asks of a value. -/
structure LinkValue.WellFormed (link : LinkValue) : Prop where
  url_ne : link.url ≠ ""
  url_closes : '>' ∉ link.url.toList
  relation_closes : '"' ∉ link.relation.toList
  relation_url : '>' ∉ link.relation.toList
  blanks : ∀ c ∈ link.first.toList ++ link.before.toList ++ link.after.toList ++
    link.last.toList, c = ' ' ∨ c = '\t'

/-- The header of some links. -/
def linkHeader : List LinkValue → Option String
  | [] => none
  | links => some (",".intercalate (links.map (·.text)))

/-- A page, with the link to it and the other links of its own header, which the code
has to tell from the one to the next page. -/
structure ListedPage where
  /-- The link to the page; of the first page only the URL is used. -/
  link : LinkValue
  body : JsonValue
  /-- The relations before and after that of the next page. -/
  before : List LinkValue
  after : List LinkValue

/-- The header of the first page of some. -/
def headerOf : List ListedPage → Option String
  | [] => none
  | page :: pages =>
    linkHeader (page.before ++ (pages.head?.map (·.link)).toList ++ page.after)

/-- The header is as GitHub writes it: each link is spelled as one, and one of them, and
no other, leads to the next page. -/
structure ListedPage.WellFormed (page : ListedPage) : Prop where
  link : page.link.WellFormed
  next : page.link.relation = "next"
  others : ∀ link ∈ page.before ++ page.after,
    link.WellFormed ∧ link.relation ≠ "next"

/-! ## Parsing the header -/

section Parse

variable {s e : Pos} {link : LinkValue}

/-- A URL in brackets and the relation `next`, with this after it. -/
def IsNextLink (cs url rest : List Char) : Prop :=
  ∃ b a, cs = '<' :: (url ++ '>' :: (b ++ ';' :: (a ++ ("rel=\"next\"".toList ++ rest))))
    ∧ url ≠ [] ∧ '>' ∉ url ∧ (∀ c ∈ b, Text.isSpace c = true)
    ∧ ∀ c ∈ a, Text.isSpace c = true

theorem mem_ends_closed {closing : String} {c : Char} (h : closing.toList = [c]) :
    e ∈ (group 1 (many1 (noneOf closing))).ends s ↔
      ∃ taken rest, s.rest = taken ++ rest ∧ c ∉ taken ∧ taken ≠ []
        ∧ e = (s.advance taken rest).capture 1 taken := by
  unfold many1 noneOf
  rw [mem_ends_group_rep]
  refine exists₂_congr fun taken rest => and_congr_right fun _ => ?_
  have hnone : (∀ d ∈ taken, (!closing.toList.contains d) = true) ↔ c ∉ taken := by
    rw [h]
    constructor
    · intro hall hc
      have := hall c hc
      simp at this
    · intro hc d hd
      have hne : d ≠ c := fun heq => hc (heq ▸ hd)
      simpa using hne
  rw [hnone, Nat.one_le_iff_ne_zero, ne_eq, List.length_eq_zero_iff]
  simp

/-- **What the pattern matches.** -/
theorem of_mem_ends_nextLinkPattern (he : e ∈ nextLinkPattern.ends s) :
    ∃ url, IsNextLink s.rest url e.rest ∧ e.captures = (1, url) :: s.captures := by
  obtain ⟨m₁, h₁, he⟩ := mem_ends_seq.mp he
  obtain ⟨m₂, h₂, he⟩ := mem_ends_seq.mp he
  obtain ⟨m₃, h₃, he⟩ := mem_ends_seq.mp he
  obtain ⟨m₄, h₄, he⟩ := mem_ends_seq.mp he
  obtain ⟨m₅, h₅, he⟩ := mem_ends_seq.mp he
  obtain ⟨m₆, h₆, he⟩ := mem_ends_seq.mp he
  obtain ⟨rest₁, hrest₁, rfl⟩ := mem_ends_text.mp h₁
  obtain ⟨url, rest₂, hrest₂, hurl, hne, rfl⟩ :=
    (mem_ends_closed (show ">".toList = ['>'] by decide)).mp h₂
  obtain ⟨rest₃, hrest₃, rfl⟩ := mem_ends_text.mp h₃
  obtain ⟨b, rest₄, hrest₄, hb, -, -, rfl⟩ := mem_ends_rep_char.mp h₄
  obtain ⟨rest₅, hrest₅, rfl⟩ := mem_ends_text.mp h₅
  obtain ⟨a, rest₆, hrest₆, ha, -, -, rfl⟩ := mem_ends_rep_char.mp h₆
  obtain ⟨rest₇, hrest₇, rfl⟩ := mem_ends_text.mp he
  simp only [rest_advance, rest_capture] at hrest₂ hrest₃ hrest₄ hrest₅ hrest₆ hrest₇
  refine ⟨url, ⟨b, a, ?_, hne, hurl, hb, ha⟩, rfl⟩
  rw [hrest₁, hrest₂, hrest₃, hrest₄, hrest₅, hrest₆, hrest₇]
  rfl

theorem exists_mem_ends_nextLinkPattern {url rest : List Char}
    (h : IsNextLink s.rest url rest) : ∃ e, e ∈ nextLinkPattern.ends s := by
  obtain ⟨b, a, hrest, hne, hurl, hb, ha⟩ := h
  refine ⟨_, mem_ends_seq.mpr ⟨_, mem_ends_text.mpr ⟨_, hrest, rfl⟩,
    mem_ends_seq.mpr ⟨_, (mem_ends_closed (show ">".toList = ['>'] by decide)).mpr
      ⟨url, _, rfl, hurl, hne, rfl⟩,
    mem_ends_seq.mpr ⟨_, mem_ends_text.mpr ⟨_, rfl, rfl⟩,
    mem_ends_seq.mpr ⟨_, mem_ends_rep_char.mpr ⟨b, _, rfl, hb, Nat.zero_le _, nofun, rfl⟩,
    mem_ends_seq.mpr ⟨_, mem_ends_text.mpr ⟨_, rfl, rfl⟩,
    mem_ends_seq.mpr ⟨_, mem_ends_rep_char.mpr ⟨a, _, rfl, ha, Nat.zero_le _, nofun, rfl⟩,
    mem_ends_text.mpr ⟨rest, rfl, rfl⟩⟩⟩⟩⟩⟩⟩⟩

/-- Only one URL can be matched at a point. -/
theorem IsNextLink.url_unique {cs url url' rest rest' : List Char}
    (h : IsNextLink cs url rest) (h' : IsNextLink cs url' rest') : url = url' := by
  obtain ⟨b, a, hcs, -, hurl, -⟩ := h
  obtain ⟨b', a', hcs', -, hurl', -⟩ := h'
  exact (Text.append_mark_inj hurl hurl' (List.cons.inj (hcs.symm.trans hcs')).2).1

/-- A search passes what matches nowhere. -/
theorem search_append {p : Pattern} {cs : List Char} :
    ∀ {skipped before : List Char},
      (∀ x c y, skipped = x ++ c :: y →
        p.ends ⟨x.reverse ++ before, c :: (y ++ cs), []⟩ = []) →
      p.search before (skipped ++ cs) = p.search (skipped.reverse ++ before) cs := by
  intro skipped
  induction skipped with
  | nil => exact fun _ => rfl
  | cons d skipped ih =>
    intro before h
    have hfirst := h [] d skipped rfl
    rw [List.reverse_nil, List.nil_append] at hfirst
    rw [List.cons_append, List.reverse_cons, List.append_assoc]
    conv_lhs => unfold search
    rw [hfirst]
    refine ih fun x c y hskipped => ?_
    have hlater := h (d :: x) c y (by rw [hskipped]; rfl)
    rw [List.reverse_cons, List.append_assoc] at hlater
    exact hlater

/-- What is found in a text is a link that stands in it. -/
theorem exists_of_nextLinkIn {part url : String} (h : nextLinkIn part = some url) :
    ∃ x cs rest, part.toList = x ++ cs ∧ IsNextLink cs url.toList rest := by
  unfold nextLinkIn at h
  obtain ⟨found, hsearch, rfl⟩ := Option.map_eq_some_iff.mp h
  obtain ⟨hmem, hcaptures, htext, -⟩ := mem_search hsearch
  obtain ⟨url, hlink, hcaptured⟩ := of_mem_ends_nextLinkPattern hmem
  have hurl : (found.2.captured 1).toList = url := by
    unfold Pos.captured
    rw [hcaptured, String.toList_ofList]
    rfl
  rw [hurl]
  exact ⟨found.1.before.reverse, found.1.rest, _, htext.symm, hlink⟩

/-- The link that a text starts with, after characters none of which opens one, is
found. -/
theorem nextLinkIn_eq_some {part : String} {skipped cs url rest : List Char}
    (hpart : part.toList = skipped ++ cs) (hskipped : '<' ∉ skipped)
    (hlink : IsNextLink cs url rest) : nextLinkIn part = some (String.ofList url) := by
  have hpass : nextLinkPattern.search [] (skipped ++ cs)
      = nextLinkPattern.search (skipped.reverse ++ []) cs := by
    refine search_append fun x c y hx => List.eq_nil_iff_forall_not_mem.mpr fun e he => ?_
    obtain ⟨url', ⟨b, a, hcs, -⟩, -⟩ := of_mem_ends_nextLinkPattern he
    rw [hx, (List.cons.inj hcs).1] at hskipped
    simp at hskipped
  obtain ⟨e, he⟩ := exists_mem_ends_nextLinkPattern (s := ⟨skipped.reverse ++ [], cs, []⟩) hlink
  obtain ⟨e', others, hends⟩ := List.exists_cons_of_ne_nil (List.ne_nil_of_mem he)
  obtain ⟨url', hlink', hcaptures⟩ :=
    of_mem_ends_nextLinkPattern (hends ▸ List.mem_cons_self : e' ∈ _)
  have hhead : (nextLinkPattern.ends ⟨skipped.reverse ++ [], cs, []⟩).head? = some e' := by
    rw [hends]
    rfl
  have hsearch : nextLinkPattern.search (skipped.reverse ++ []) cs
      = some (⟨skipped.reverse ++ [], cs, []⟩, e') := by
    obtain ⟨b, a, hcs, -⟩ := hlink
    rw [hcs] at hhead ⊢
    unfold search
    rw [hhead]
  unfold nextLinkIn
  rw [hpart, hpass, hsearch, Option.map_some]
  unfold Pos.captured
  rw [hcaptures, ← hlink.url_unique hlink']
  rfl

theorem LinkValue.toList_text (link : LinkValue) :
    link.text.toList = link.first.toList ++ '<' :: (link.url.toList ++ '>' ::
      (link.before.toList ++ ';' :: (link.after.toList ++ ("rel=\"".toList ++
        (link.relation.toList ++ '"' :: link.last.toList))))) := by
  unfold LinkValue.text
  simp only [String.toList_append, List.append_assoc, show "<".toList = ['<'] by decide,
    show ">".toList = ['>'] by decide, show ";".toList = [';'] by decide,
    show "\"".toList = ['"'] by decide, List.cons_append, List.nil_append]

/-- A mark that stands once. -/
theorem append_mark_inj_once {mark : Char} {x y z w : List Char} (hy : mark ∉ y)
    (hw : mark ∉ w) (h : x ++ mark :: z = y ++ mark :: w) : x = y ∧ z = w := by
  refine Text.append_mark_inj ?_ hy h
  have hcount := congrArg (List.count mark) h
  rw [List.count_append, List.count_append, List.count_cons_self, List.count_cons_self,
    List.count_eq_zero_of_not_mem hy, List.count_eq_zero_of_not_mem hw] at hcount
  rw [← List.count_eq_zero]
  omega

section WellFormed

variable (hlink : link.WellFormed)
include hlink

theorem LinkValue.WellFormed.notMem {c : Char} (hc : c ≠ ' ') (hc' : c ≠ '\t') :
    c ∉ link.first.toList ∧ c ∉ link.before.toList ∧ c ∉ link.after.toList
      ∧ c ∉ link.last.toList := by
  have hnot : c ∉ link.first.toList ++ link.before.toList ++ link.after.toList ++
      link.last.toList := fun hmem => (hlink.blanks c hmem).elim hc hc'
  simp only [List.mem_append, not_or] at hnot
  exact ⟨hnot.1.1.1, hnot.1.1.2, hnot.1.2, hnot.2⟩

theorem LinkValue.WellFormed.isSpace {c : Char}
    (hc : c ∈ link.before.toList ∨ c ∈ link.after.toList) : Text.isSpace c = true := by
  have hblank : c = ' ' ∨ c = '\t' := by
    refine hlink.blanks c ?_
    simp only [List.mem_append]
    tauto
  obtain rfl | rfl := hblank
  · decide
  · decide

/-- **A link stands once in its text**, and is a link to the next page if its relation
says so. -/
theorem LinkValue.WellFormed.link_unique {x cs u rest : List Char}
    (htext : link.text.toList = x ++ cs) (hnext : IsNextLink cs u rest) :
    link.relation = "next" ∧ x ++ '<' :: u = link.first.toList ++ '<' :: link.url.toList := by
  obtain ⟨b, a, rfl, -, -, hb, ha⟩ := hnext
  obtain ⟨hfirst, hbefore, hafter, hlast⟩ :=
    hlink.notMem (show '>' ≠ ' ' by decide) (show '>' ≠ '\t' by decide)
  rw [link.toList_text] at htext
  -- the only closing bracket
  have hbrackets : (x ++ '<' :: u) ++ '>' :: (b ++ ';' :: (a ++
        ("rel=\"next\"".toList ++ rest)))
      = (link.first.toList ++ '<' :: link.url.toList) ++ '>' :: (link.before.toList ++ ';' ::
        (link.after.toList ++ ("rel=\"".toList ++
          (link.relation.toList ++ '"' :: link.last.toList)))) := by
    rw [List.append_assoc, List.append_assoc]
    exact htext.symm
  obtain ⟨hurl, hrelation⟩ := append_mark_inj_once
    (by
      simp only [List.mem_append, List.mem_cons, not_or]
      exact ⟨hfirst, by decide, hlink.url_closes⟩)
    (by
      simp only [List.mem_append, List.mem_cons, not_or]
      exact ⟨hbefore, by decide, hafter, by decide, hlink.relation_url, by decide, hlast⟩)
    hbrackets
  refine ⟨?_, hurl⟩
  have hspace : ∀ {c : Char}, Text.isSpace c = false → c ∉ b ∧ c ∉ a := by
    intro c hc
    refine ⟨fun hmem => ?_, fun hmem => ?_⟩
    · rw [hb c hmem] at hc
      contradiction
    · rw [ha c hmem] at hc
      contradiction
  have hsemi := hlink.notMem (show ';' ≠ ' ' by decide) (show ';' ≠ '\t' by decide)
  obtain ⟨-, hrelation⟩ := Text.append_mark_inj (hspace (by decide)).1 hsemi.2.1 hrelation
  have hr := hlink.notMem (show 'r' ≠ ' ' by decide) (show 'r' ≠ '\t' by decide)
  have hsplit : "rel=\"next\"".toList = "rel=\"".toList ++ ("next".toList ++ ['"']) := by
    decide
  rw [hsplit, List.append_assoc] at hrelation
  obtain ⟨-, hrelation⟩ := Text.append_mark_inj (hspace (show Text.isSpace 'r' = false by
    decide)).2 hr.2.2.1 hrelation
  rw [List.append_assoc] at hrelation
  have hname := List.append_cancel_left hrelation
  obtain ⟨hname, -⟩ := Text.append_mark_inj (show '"' ∉ "next".toList by decide)
    hlink.relation_closes hname
  exact (String.toList_inj.mp hname).symm

/-- The text has the commas of the URL and of the relation. -/
theorem LinkValue.WellFormed.comma_notMem (hurl : ',' ∉ link.url.toList)
    (hrelation : link.relation = "next") : ',' ∉ link.text.toList := by
  obtain ⟨hfirst, hbefore, hafter, hlast⟩ :=
    hlink.notMem (show ',' ≠ ' ' by decide) (show ',' ≠ '\t' by decide)
  rw [link.toList_text, hrelation]
  simp only [List.mem_append, List.mem_cons, not_or]
  exact ⟨hfirst, by decide, hurl, by decide, hbefore, by decide, hafter, by decide,
    by decide, by decide, hlast⟩

/-- **What the parser makes of one link.** -/
theorem LinkValue.WellFormed.findSome_text :
    (link.relation ≠ "next" → (Text.split ',' link.text).findSome? nextLinkIn = none)
      ∧ (link.relation = "next" → ',' ∉ link.url.toList →
        (Text.split ',' link.text).findSome? nextLinkIn = some link.url)
      ∧ (',' ∈ link.url.toList → '<' ∉ link.url.toList →
        (Text.split ',' link.text).findSome? nextLinkIn = none) := by
  -- what is found in a part is the link
  have hpart : ∀ part ∈ link.text.toList.splitOn ',', ∀ url,
      nextLinkIn (String.ofList part) = some url →
      link.relation = "next" ∧ ∃ x, x ++ '<' :: url.toList
        = link.first.toList ++ '<' :: link.url.toList ∧ ',' ∉ url.toList := by
    intro part hmem url hfound
    obtain ⟨x, cs, rest, hcs, hnext⟩ := exists_of_nextLinkIn hfound
    obtain ⟨before, after, htext⟩ := Parts.exists_of_mem_splitOn hmem
    rw [String.toList_ofList] at hcs
    have hcomma := Parts.mark_notMem hmem
    obtain ⟨b, a, hlist, hne, hurl, hb, ha⟩ := hnext
    have hwhole : IsNextLink (cs ++ after) url.toList (rest ++ after) :=
      ⟨b, a, by rw [hlist]; simp, hne, hurl, hb, ha⟩
    obtain ⟨hrelation, hsame⟩ := hlink.link_unique (x := before ++ x)
      (by rw [htext, hcs]; simp) hwhole
    refine ⟨hrelation, before ++ x, hsame, fun hmem => hcomma ?_⟩
    rw [hcs, hlist]
    simp [hmem]
  refine ⟨fun hrelation => ?_, fun hrelation hurl => ?_, fun hcomma hopen => ?_⟩
  · rw [List.findSome?_eq_none_iff]
    intro text htext
    obtain ⟨part, hmem, rfl⟩ := List.mem_map.mp htext
    refine Option.eq_none_iff_forall_ne_some.mpr fun url hfound => ?_
    exact hrelation (hpart part hmem url hfound).1
  · have hwhole : Text.split ',' link.text = [link.text] := by
      unfold Text.split
      rw [List.splitOn_eq_singleton (hlink.comma_notMem hurl hrelation), List.map_singleton,
        String.ofList_toList]
    have hne : link.url.toList ≠ [] := by
      intro hnil
      exact hlink.url_ne (String.toList_inj.mp hnil)
    have hnext : IsNextLink _ link.url.toList link.last.toList :=
      ⟨link.before.toList, link.after.toList, rfl, hne, hlink.url_closes,
        fun c hc => hlink.isSpace (Or.inl hc), fun c hc => hlink.isSpace (Or.inr hc)⟩
    have hfound : nextLinkIn link.text = some _ := nextLinkIn_eq_some
      (by
        rw [link.toList_text, hrelation]
        have hsplit : "rel=\"next\"".toList
          = "rel=\"".toList ++ ("next".toList ++ ['"']) := by decide
        rw [hsplit]
        simp)
      (hlink.notMem (show '<' ≠ ' ' by decide) (show '<' ≠ '\t' by decide)).1 hnext
    rw [hwhole, List.findSome?_cons, hfound, String.ofList_toList]
  · rw [List.findSome?_eq_none_iff]
    intro text htext
    obtain ⟨part, hmem, rfl⟩ := List.mem_map.mp htext
    refine Option.eq_none_iff_forall_ne_some.mpr fun url hfound => ?_
    obtain ⟨-, x, hsame, hnone⟩ := hpart part hmem url hfound
    have hfirst := (hlink.notMem (show '<' ≠ ' ' by decide) (show '<' ≠ '\t' by decide)).1
    obtain ⟨-, hurl⟩ := append_mark_inj_once hfirst hopen hsame
    exact hnone (hurl ▸ hcomma)

end WellFormed

/-- The links of a header are parsed one by one. -/
theorem findSome_linkHeader {links : List LinkValue} {header : String}
    (h : linkHeader links = some header) (f : String → Option String) :
    (Text.split ',' header).findSome? f
      = links.findSome? fun link => (Text.split ',' link.text).findSome? f := by
  cases links with
  | nil => contradiction
  | cons link links =>
    have hheader : header = ",".intercalate ((link :: links).map (·.text)) :=
      (Option.some.inj h).symm
    have hparts : Text.split ',' header
        = (link :: links).flatMap fun link => Text.split ',' link.text := by
      unfold Text.split
      rw [hheader, String.toList_intercalate, show ",".toList = [','] by decide,
        Parts.splitOn_intercalate (by simp), List.map_flatMap]
      simp [List.flatMap_map]
    rw [hparts]
    generalize link :: links = links
    induction links with
    | nil => rfl
    | cons link links ih =>
      rw [List.flatMap_cons, List.findSome?_append, ih, List.findSome?_cons]
      cases (Text.split ',' link.text).findSome? f with
      | none => rfl
      | some url => rfl

/-- **What the parser makes of a header** with one link to a next page, or none. -/
theorem parseNextLink_eq {before after : List LinkValue} {next : Option LinkValue}
    (hothers : ∀ link ∈ before ++ after, link.WellFormed ∧ link.relation ≠ "next")
    (hnext : ∀ link ∈ next, link.WellFormed ∧ link.relation = "next"
      ∧ (',' ∈ link.url.toList → '<' ∉ link.url.toList)) :
    parseNextLink (linkHeader (before ++ next.toList ++ after))
      = next.bind fun link => if ',' ∈ link.url.toList then none else some link.url := by
  have hnone : ∀ links : List LinkValue,
      (∀ link ∈ links, link.WellFormed ∧ link.relation ≠ "next") →
      links.findSome? (fun link => (Text.split ',' link.text).findSome? nextLinkIn) = none := by
    intro links hlinks
    rw [List.findSome?_eq_none_iff]
    exact fun link hlink => (hlinks link hlink).1.findSome_text.1 (hlinks link hlink).2
  have hfound : (before ++ next.toList ++ after).findSome?
      (fun link => (Text.split ',' link.text).findSome? nextLinkIn)
      = next.bind fun link => if ',' ∈ link.url.toList then none else some link.url := by
    rw [List.findSome?_append, List.findSome?_append,
      hnone before fun link hlink => hothers link (List.mem_append_left _ hlink),
      hnone after fun link hlink => hothers link (List.mem_append_right _ hlink),
      Option.none_or, Option.or_none]
    cases next with
    | none => rfl
    | some link =>
      obtain ⟨hlink, hrelation, hopen⟩ := hnext link rfl
      obtain ⟨-, hplain, hcomma⟩ := hlink.findSome_text
      show (List.findSome? _ [link]) = if ',' ∈ link.url.toList then none else some link.url
      rw [List.findSome?_singleton]
      by_cases hmem : ',' ∈ link.url.toList
      · rw [if_pos hmem, hcomma hmem (hopen hmem)]
      · rw [if_neg hmem, hplain hrelation hmem]
  rw [← hfound]
  cases hheader : linkHeader (before ++ next.toList ++ after) with
  | none =>
    have hnil : before ++ next.toList ++ after = [] := by
      revert hheader
      cases before ++ next.toList ++ after with
      | nil => exact fun _ => rfl
      | cons link links => exact fun h => nomatch h
    rw [hnil]
    rfl
  | some header =>
    rw [← findSome_linkHeader hheader]
    show (if Text.truthy header = true then _ else none) = _
    by_cases htruthy : Text.truthy header = true
    · rw [if_pos htruthy]
    · have hempty : header = "" := by simpa [Text.truthy] using htruthy
      rw [if_neg htruthy, hempty]
      decide

end Parse

/-! ## Following a chain -/

/-- A URL with a scheme, which does not go on with one where the base URL ends. -/
def IsAbsolute (baseUrl url : String) : Prop :=
  Text.startsWith url "http" = true ∧ Text.startsWith url (baseUrl ++ "http") = false

instance (baseUrl url : String) : Decidable (IsAbsolute baseUrl url) :=
  inferInstanceAs (Decidable (_ ∧ _))

section Chain

variable {α : Type*} {network : Network} {settings : GitHubHttpSettings} {urls : UrlStandard}
  {options : GitHubRequestOptions} {extract : JsonValue → List α}
  {chain : List ListedPage} {page : ListedPage} {pages : List ListedPage}

/-- **GitHub serves a chain of pages**: whoever asks for a page gets it with its header,
or is told that what is stored for it still holds. -/
structure Serves (network : Network) (settings : GitHubHttpSettings) (urls : UrlStandard)
    (method : HttpMethod) (chain : List ListedPage) : Prop where
  absolute : ∀ page ∈ chain, IsAbsolute settings.baseUrl page.link.url
  addressed : ∀ page ∈ chain, ∃ address, urls page.link.url [] = some address
  answers : ∀ earlier page pages, chain = earlier ++ page :: pages → ∀ n request,
    urls page.link.url [] = some request.url → request.method = method →
    ∃ response, network.answer n request = .ok response
      ∧ (response.ok = true ∧ response.body = page.body
          ∧ response.link = headerOf (page :: pages)
        ∨ response.status = 304 ∧ request.ifNoneMatch.isSome = true)

/-- **What is stored is what GitHub would send now.** -/
def Current (urls : UrlStandard) (method : HttpMethod) (chain : List ListedPage)
    (etags : EtagCache) : Prop :=
  ∀ earlier page pages, chain = earlier ++ page :: pages → ∀ address,
    urls page.link.url [] = some address → ∀ entry,
    etags.entries.get (EtagCache.key method address) = some entry →
    entry.body = page.body ∧ entry.link = headerOf (page :: pages)

/-- A listing whose first page `paginate` asks for: each page links to the next, every
header is well formed, and what the store holds of a page is current. -/
structure IsListing (network : Network) (settings : GitHubHttpSettings) (urls : UrlStandard)
    (path : String) (options : GitHubRequestOptions) (perPage : ℕ)
    (chain : List ListedPage) (client : GitHubClient) : Prop where
  configured : ∃ token, settings.token = some token ∧ Text.truthy token = true
  first : buildUrl settings urls path (options.query ++ [("per_page", toString perPage)])
    = chain.head?.map (·.link.url)
  serves : Serves network settings urls options.method chain
  wellFormed : ∀ page ∈ chain, page.WellFormed
  current : Current urls options.method chain client.etags

theorem absolutePath_requested (h : IsAbsolute settings.baseUrl url) :
    absolutePath settings
      (if Text.startsWith url settings.baseUrl then
        Text.slice settings.baseUrl.toList.length url
      else url) = url := by
  unfold absolutePath
  by_cases hbase : Text.startsWith url settings.baseUrl = true
  · rw [if_pos hbase]
    obtain ⟨rest, hrest⟩ := Text.startsWith_iff.mp hbase
    have hslice : (Text.slice settings.baseUrl.toList.length url).toList = rest := by
      unfold Text.slice
      rw [String.toList_ofList, ← hrest, List.drop_left']
      rfl
    have hnot : ¬Text.startsWith (Text.slice settings.baseUrl.toList.length url) "http"
        = true := by
      intro hhttp
      obtain ⟨rest', hrest'⟩ := Text.startsWith_iff.mp hhttp
      have hglued : Text.startsWith url (settings.baseUrl ++ "http") = true := by
        refine Text.startsWith_iff.mpr ⟨rest', ?_⟩
        rw [String.toList_append, List.append_assoc, hrest', hslice, hrest]
      rw [h.2] at hglued
      cases hglued
    rw [if_neg hnot]
    refine String.toList_inj.mp ?_
    rw [String.toList_append, hslice, hrest]
  · rw [if_neg hbase, if_pos h.1]

/-- A fresh answer is handed on, and stored if it has an ETag. -/
theorem attempt_fresh (client : GitHubClient) (path : String) {url token : String}
    {cached : Option CachedResponse} {response : HttpResponse}
    (hanswer : network.answer client.sent (httpRequest settings url token options cached)
      = .ok response)
    (hok : response.ok = true) :
    ∃ after, attempt network settings url path token options cached client
        = (.ok ⟨response.body, response.status, false, response.link, response.etag⟩, after)
      ∧ (after.etags = client.etags ∨ ∃ etag, after.etags
        = client.etags.set options.method url ⟨etag, response.body, response.link⟩) := by
  have hstatus : (response.status == 304) = false := by
    unfold HttpResponse.ok at hok
    rw [Bool.and_eq_true, decide_eq_true_iff, decide_eq_true_iff] at hok
    rw [beq_eq_false_iff_ne]
    omega
  unfold attempt
  rw [hanswer]
  dsimp only
  rw [hstatus]
  dsimp only
  rw [if_pos hok]
  refine ⟨_, rfl, ?_⟩
  dsimp only
  cases response.etag.filter Text.truthy with
  | none => exact Or.inl rfl
  | some etag =>
    cases options.isConditional with
    | true => exact Or.inr ⟨etag, rfl⟩
    | false => exact Or.inl rfl

/-- A 304 is answered from the store. -/
theorem attempt_notModified (client : GitHubClient) (path : String) {url token : String}
    {cached : CachedResponse} {response : HttpResponse}
    (hanswer : network.answer client.sent
      (httpRequest settings url token options (some cached)) = .ok response)
    (hstatus : response.status = 304) :
    ∃ after, attempt network settings url path token options (some cached) client
        = (.ok ⟨cached.body, 304, true, cached.link, some cached.etag⟩, after)
      ∧ after.etags = client.etags := by
  unfold attempt
  rw [hanswer]
  dsimp only
  rw [hstatus]
  exact ⟨_, rfl, rfl⟩

/-- Storing what GitHub sent keeps the store current. -/
theorem Current.set {etags : EtagCache}
    (hserves : Serves network settings urls options.method chain)
    (h : Current urls options.method chain etags) (etag : String) {n : ℕ}
    {request : HttpRequest} {response : HttpResponse} (hmethod : request.method = options.method)
    (hanswer : network.answer n request = .ok response) (hok : response.ok = true) :
    Current urls options.method chain
      (etags.set options.method request.url ⟨etag, response.body, response.link⟩) := by
  intro earlier page pages hchain address haddress entry hentry
  have hmem := Recency.mem_evict (KeyMap.get_eq_some_iff.mp hentry)
  have hfound := KeyMap.get_eq_some_iff.mpr hmem
  rw [Recency.get_touch] at hfound
  by_cases hkey : EtagCache.key options.method request.url
      = EtagCache.key options.method address
  · rw [if_pos hkey] at hfound
    rw [← Option.some.inj hfound]
    obtain ⟨-, hurl⟩ := EtagCache.key_inj.mp hkey
    -- one URL has one answer
    obtain ⟨response', hanswer', ⟨-, hbody, hlink⟩ | ⟨hstatus, -⟩⟩ :=
      hserves.answers earlier page pages hchain n request (hurl ▸ haddress) hmethod
    · have hsame : response' = response :=
        Except.ok.inj (hanswer'.symm.trans hanswer)
      rw [← hsame]
      exact ⟨hbody, hlink⟩
    · have hsame : response' = response :=
        Except.ok.inj (hanswer'.symm.trans hanswer)
      rw [← hsame] at hok
      unfold HttpResponse.ok at hok
      rw [hstatus] at hok
      contradiction
  · rw [if_neg hkey] at hfound
    exact h earlier page pages hchain address haddress entry hfound

/-- **A page that is asked for comes**, fresh or from the store. -/
theorem requestAbsolute_served
    (hconfigured : ∃ token, settings.token = some token ∧ Text.truthy token = true)
    (hserves : Serves network settings urls options.method chain)
    {earlier : List ListedPage} (hchain : chain = earlier ++ page :: pages)
    {client : GitHubClient} (hcurrent : Current urls options.method chain client.etags) :
    ∃ response after,
      requestAbsolute network settings urls page.link.url options client
          = (.ok response, after)
        ∧ response.data = page.body ∧ response.link = headerOf (page :: pages)
        ∧ Current urls options.method chain after.etags := by
  have hmem : page ∈ chain := hchain ▸ by simp
  obtain ⟨address, haddress⟩ := hserves.addressed page hmem
  obtain ⟨token, htoken, htruthy⟩ := hconfigured
  unfold requestAbsolute GitHubHttpSettings.request buildUrl
  dsimp only
  rw [absolutePath_requested (hserves.absolute page hmem), haddress, htoken,
    Option.filter_some_pos htruthy]
  dsimp only
  generalize hoptions : ({ options with query := [] } : GitHubRequestOptions) = bare
  have hmethod : bare.method = options.method := by rw [← hoptions]
  -- what is stored for the page, and the store after it was looked up
  obtain ⟨cached, etags, hlookup, hcached, hetags⟩ : ∃ cached etags,
      (if bare.isConditional then client.etags.get options.method address
        else (none, client.etags)) = (cached, etags)
      ∧ (∀ entry, cached = some entry →
        entry.body = page.body ∧ entry.link = headerOf (page :: pages))
      ∧ Current urls options.method chain etags := by
    by_cases hconditional : bare.isConditional = true
    · refine ⟨_, _, if_pos hconditional, fun entry hentry => ?_, ?_⟩
      · refine hcurrent earlier page pages hchain address haddress entry ?_
        rw [← hentry]
        exact Recency.fst_read.symm
      · intro earlier' page' pages' hchain' address' haddress' entry hentry
        refine hcurrent earlier' page' pages' hchain' address' haddress' entry ?_
        rw [← hentry]
        exact Recency.get_read.symm
    · exact ⟨_, _, if_neg hconditional, nofun, hcurrent⟩
  rw [hlookup]
  dsimp only
  unfold retrying
  obtain ⟨response, hanswer, hcase⟩ := hserves.answers earlier page pages hchain client.sent
    (httpRequest settings address token bare cached) haddress hmethod
  obtain ⟨hok, hbody, hlink⟩ | ⟨hstatus, hsome⟩ := hcase
  · obtain ⟨after, hattempt, hstored⟩ := attempt_fresh
      { client with etags := etags } _ hanswer hok
    rw [hattempt]
    refine ⟨_, after, rfl, hbody, hlink, ?_⟩
    obtain hsame | ⟨etag, hset⟩ := hstored
    · rw [hsame]
      exact hetags
    · have hmade : (httpRequest settings address token bare cached).method
          = options.method := hmethod
      have hstored := hetags.set hserves etag hmade hanswer hok
      rw [hset, hmethod]
      exact hstored
  · obtain ⟨entry, hentry⟩ : ∃ entry, cached = some entry := by
      cases cached with
      | none => exact nomatch hsome
      | some entry => exact ⟨entry, rfl⟩
    rw [hentry] at hanswer ⊢
    obtain ⟨after, hattempt, hsame⟩ := attempt_notModified
      { client with etags := etags } _ hanswer hstatus
    rw [hattempt]
    obtain ⟨hbody, hlink⟩ := hcached entry hentry
    exact ⟨_, after, rfl, hbody, hlink, hsame ▸ hetags⟩

/-- The link to a page has a comma in its URL. -/
def ListedPage.isHidden (page : ListedPage) : Bool := page.link.url.toList.contains ','

/-- The pages up to the first whose link the parser does not see. -/
def seen : List ListedPage → List ListedPage
  | [] => []
  | page :: pages => page :: pages.takeWhile fun later => !later.isHidden

theorem seen_cons_cons (next : ListedPage) :
    seen (page :: next :: pages)
      = if next.isHidden then [page] else page :: seen (next :: pages) := by
  show page :: List.takeWhile _ (next :: pages)
    = if next.isHidden then [page] else page :: next :: List.takeWhile _ pages
  cases hhidden : next.isHidden with
  | true =>
    rw [List.takeWhile_cons_of_neg (by simp [hhidden])]
    rfl
  | false =>
    rw [List.takeWhile_cons_of_pos (by simp [hhidden])]
    rfl

/-- The next page, as the parser sees it. -/
theorem parseNextLink_headerOf (hpage : page.WellFormed)
    (hnext : ∀ next ∈ pages.head?, next.WellFormed
      ∧ (next.isHidden = true → '<' ∉ next.link.url.toList)) :
    parseNextLink (headerOf (page :: pages))
      = pages.head?.bind fun next => if next.isHidden then none else some next.link.url := by
  unfold headerOf
  rw [parseNextLink_eq hpage.others]
  · cases pages with
    | nil => rfl
    | cons next pages =>
      show (if ',' ∈ next.link.url.toList then none else some next.link.url) = _
      show _ = if next.isHidden then none else some next.link.url
      unfold ListedPage.isHidden
      simp
  · intro link hlink
    cases pages with
    | nil => exact nomatch hlink
    | cons next pages =>
      obtain rfl : next.link = link := Option.some.inj hlink
      obtain ⟨hformed, hopen⟩ := hnext next rfl
      refine ⟨hformed.link, hformed.next, fun hcomma => hopen ?_⟩
      unfold ListedPage.isHidden
      simpa using hcomma

/-- **The loop returns the pages it sees**, up to the bound, and says whether it saw
more. -/
theorem followPages_seen (extract : JsonValue → List α)
    (hconfigured : ∃ token, settings.token = some token ∧ Text.truthy token = true)
    (hserves : Serves network settings urls options.method chain)
    (hformed : ∀ page ∈ chain, page.WellFormed) (left : ℕ) :
    ∀ (earlier : List ListedPage) (page : ListedPage) (pages : List ListedPage)
      (read : Paginated α) (client : GitHubClient),
      chain = earlier ++ page :: pages →
      Current urls options.method chain client.etags →
      (∀ later ∈ pages.take left, later.isHidden = true → '<' ∉ later.link.url.toList) →
      ∃ result after,
        followPages network settings urls options extract left (some page.link.url) read client
            = (.ok result, after)
          ∧ result.items = read.items ++
            ((seen (page :: pages)).take left).flatMap (fun page => extract page.body)
          ∧ result.truncated = decide (left < (seen (page :: pages)).length) := by
  induction left with
  | zero =>
    intro earlier page pages read client _ _ _
    refine ⟨_, client, rfl, (List.append_nil _).symm, ?_⟩
    exact (decide_eq_true (Nat.succ_pos _)).symm
  | succ left ih =>
    intro earlier page pages read client hchain hcurrent hopen
    have hmem : page ∈ chain := hchain ▸ by simp
    have htruthy : (some page.link.url).filter Text.truthy = some page.link.url := by
      refine Option.filter_some_pos ?_
      unfold Text.truthy
      exact bne_iff_ne.mpr (hformed page hmem).link.url_ne
    obtain ⟨response, after, hrequest, hdata, hlink, hcurrent'⟩ :=
      requestAbsolute_served hconfigured hserves hchain hcurrent
    have hnext : ∀ next ∈ pages.head?, next.WellFormed
        ∧ (next.isHidden = true → '<' ∉ next.link.url.toList) := by
      intro next hnext
      cases pages with
      | nil => exact nomatch hnext
      | cons first pages =>
        obtain rfl : first = next := Option.some.inj hnext
        exact ⟨hformed first (hchain ▸ by simp), hopen first (by simp)⟩
    have hparse := parseNextLink_headerOf (hformed page hmem) hnext
    unfold followPages
    rw [htruthy]
    dsimp only
    rw [hrequest]
    dsimp only
    rw [hlink, hparse, hdata]
    -- where the loop stops
    have hstop : ∀ (stop : List ListedPage), stop = [page] → ∀ read' : Paginated α,
        read'.items = read.items ++ extract page.body →
        ∃ result after', followPages network settings urls options extract left none read' after
            = (.ok result, after')
          ∧ result.items = read.items ++
            (stop.take (left + 1)).flatMap (fun page => extract page.body)
          ∧ result.truncated = decide (left + 1 < stop.length) := by
      rintro stop rfl read' hitems
      have hnone : followPages network settings urls options extract left none read' after
          = (.ok { read' with truncated := false }, after) := by
        cases left with
        | zero => rfl
        | succ left => rfl
      refine ⟨_, after, hnone, ?_, ?_⟩
      · rw [List.take_succ_cons, List.take_nil, List.flatMap_singleton]
        exact hitems
      · rw [List.length_singleton]
        exact (decide_eq_false (by omega)).symm
    cases pages with
    | nil => exact hstop [page] rfl _ rfl
    | cons next pages =>
      rw [seen_cons_cons]
      show ∃ result after', followPages _ _ _ _ _ left
        (if next.isHidden then none else some next.link.url) _ _ = _ ∧ _
      by_cases hhidden : next.isHidden = true
      · rw [if_pos hhidden, if_pos hhidden]
        exact hstop [page] rfl _ rfl
      · rw [if_neg hhidden, if_neg hhidden]
        obtain ⟨result, after', hfollow, hitems, htruncated⟩ :=
          ih (earlier ++ [page]) next pages
            { read with
              items := read.items ++ extract page.body
              pages := read.pages + 1
              allFromCache := read.allFromCache && response.fromCache }
            after (by rw [hchain]; simp) hcurrent' fun later hlater => hopen later (by
              rw [List.take_succ_cons]
              exact List.mem_cons_of_mem _ hlater)
        refine ⟨result, after', hfollow, ?_, ?_⟩
        · rw [hitems, List.take_succ_cons, List.flatMap_cons, List.append_assoc]
        · rw [htruncated, List.length_cons]
          simp

/-- **All pages up to the bound are returned**, and whether there are more is told. -/
def ReturnsAll (network : Network) (settings : GitHubHttpSettings) (urls : UrlStandard)
    (path : String) (options : GitHubRequestOptions) (perPage maxPages : ℕ)
    (extract : JsonValue → List α) (chain : List ListedPage) (client : GitHubClient) : Prop :=
  ∃ result after,
    paginate network settings urls path options perPage maxPages extract client
        = (.ok result, after)
      ∧ result.items = (chain.take maxPages).flatMap (fun page => extract page.body)
      ∧ (result.truncated = true ↔ maxPages < chain.length)

/-- What `paginate` returns of a chain. -/
theorem paginate_seen (extract : JsonValue → List α) {path : String} {perPage : ℕ}
    {client : GitHubClient}
    (h : IsListing network settings urls path options perPage (page :: pages) client)
    (maxPages : ℕ)
    (hopen : ∀ later ∈ pages.take maxPages,
      later.isHidden = true → '<' ∉ later.link.url.toList) :
    ∃ result after,
      paginate network settings urls path options perPage maxPages extract client
          = (.ok result, after)
        ∧ result.items = ((seen (page :: pages)).take maxPages).flatMap
          (fun page => extract page.body)
        ∧ result.truncated = decide (maxPages < (seen (page :: pages)).length) := by
  obtain ⟨result, after, hfollow, hitems, htruncated⟩ :=
    followPages_seen extract h.configured h.serves h.wellFormed maxPages [] page
      pages ⟨[], 0, false, true⟩ client rfl h.current hopen
  refine ⟨result, after, ?_, hitems, htruncated⟩
  unfold paginate
  rw [h.first]
  exact hfollow

omit network settings urls options extract chain page pages in
theorem take_takeWhile {p : ListedPage → Bool} {pages : List ListedPage} {n : ℕ}
    (h : ∀ page ∈ pages.take n, p page = true) :
    (pages.takeWhile p).take n = pages.take n := by
  induction pages generalizing n with
  | nil => rfl
  | cons page pages ih =>
    cases n with
    | zero => rfl
    | succ n =>
      rw [List.take_succ_cons] at h ⊢
      rw [List.takeWhile_cons_of_pos (h page List.mem_cons_self), List.take_succ_cons,
        ih fun page hpage => h page (List.mem_cons_of_mem _ hpage)]

/-- **A listing is complete or said not to be**, unless the loop comes to a link with a
comma in its URL: then every page from there on has to be empty, and within the
bound. -/
theorem paginates_iff {path : String} {perPage maxPages : ℕ} {client : GitHubClient}
    (h : IsListing network settings urls path options perPage (page :: pages) client)
    (hmax : 1 ≤ maxPages) :
    ((∀ later ∈ pages.take maxPages, later.isHidden = false) →
      ReturnsAll network settings urls path options perPage maxPages extract (page :: pages)
        client)
    ∧ ((∀ later ∈ pages, '<' ∉ later.link.url.toList) →
      (ReturnsAll network settings urls path options perPage maxPages extract (page :: pages)
          client
        ↔ (∀ later ∈ pages.take maxPages, later.isHidden = false)
          ∨ (page :: pages).length ≤ maxPages
            ∧ ∀ later ∈ pages.dropWhile (fun later => !later.isHidden),
              extract later.body = [])) := by
  have hvisible : (∀ later ∈ pages.take maxPages, later.isHidden = false) →
      ReturnsAll network settings urls path options perPage maxPages extract (page :: pages)
        client := by
    intro hplain
    obtain ⟨result, after, hpaginate, hitems, htruncated⟩ := paginate_seen extract
      h maxPages fun later hlater hhidden => by
        rw [hplain later hlater] at hhidden
        contradiction
    have htake := take_takeWhile (p := fun later => !later.isHidden)
      fun later hlater => by rw [hplain later hlater]; rfl
    have hlength := congrArg List.length htake
    rw [List.length_take, List.length_take] at hlength
    refine ⟨result, after, hpaginate, ?_, ?_⟩
    · rw [hitems]
      obtain ⟨left, rfl⟩ := Nat.exists_eq_succ_of_ne_zero (Nat.one_le_iff_ne_zero.mp hmax)
      have hless := congrArg (List.take left) htake
      rw [List.take_take, List.take_take, Nat.min_eq_left (Nat.le_succ left)] at hless
      unfold seen
      rw [List.take_succ_cons, List.take_succ_cons, hless]
    · rw [htruncated, decide_eq_true_iff]
      unfold seen
      rw [List.length_cons, List.length_cons]
      omega
  refine ⟨hvisible, fun hopen => ?_⟩
  obtain ⟨result, after, hpaginate, hitems, htruncated⟩ := paginate_seen extract
    h maxPages fun later hlater _ => hopen later (List.mem_of_mem_take hlater)
  -- the pages are the ones that are seen and the others
  have hsplit := List.takeWhile_append_dropWhile (p := fun later : ListedPage =>
    !later.isHidden) (l := pages)
  have hall : (page :: pages).flatMap (fun page => extract page.body)
      = (seen (page :: pages)).flatMap (fun page => extract page.body)
        ++ (pages.dropWhile fun later => !later.isHidden).flatMap
          fun page => extract page.body := by
    rw [← List.flatMap_append]
    unfold seen
    rw [List.cons_append, hsplit]
  have hlength : (seen (page :: pages)).length
      + (pages.dropWhile fun later => !later.isHidden).length = (page :: pages).length := by
    rw [← List.length_append]
    unfold seen
    rw [List.cons_append, hsplit]
  constructor
  · rintro ⟨result', after', hpaginate', hitems', htruncated'⟩
    obtain rfl : result = result' :=
      Except.ok.inj (Prod.mk.inj (hpaginate.symm.trans hpaginate')).1
    by_cases hplain : ∀ later ∈ pages.take maxPages, later.isHidden = false
    · exact Or.inl hplain
    -- the loop stops at a link it does not see
    have hshort : (seen (page :: pages)).length ≤ maxPages := by
      by_contra hlong
      refine hplain fun later hlater => ?_
      have hlong' : maxPages ≤ (pages.takeWhile fun later => !later.isHidden).length := by
        unfold seen at hlong
        rw [List.length_cons] at hlong
        omega
      rw [← hsplit, List.take_append_of_le_length hlong'] at hlater
      have hkept := List.mem_takeWhile_imp (List.mem_of_mem_take hlater)
      simpa using hkept
    have hbound : (page :: pages).length ≤ maxPages := by
      rw [htruncated, decide_eq_true_iff] at htruncated'
      omega
    rw [hitems, List.take_of_length_le hshort, List.take_of_length_le hbound, hall,
      List.self_eq_append_right] at hitems'
    exact Or.inr ⟨hbound, List.flatMap_eq_nil_iff.mp hitems'⟩
  · rintro (hplain | ⟨hbound, hempty⟩)
    · exact hvisible hplain
    · refine ⟨result, after, hpaginate, ?_, ?_⟩
      · rw [hitems, List.take_of_length_le hbound, hall, List.flatMap_eq_nil_iff.mpr hempty,
          List.append_nil, List.take_of_length_le (by omega)]
      · rw [htruncated, decide_eq_true_iff]
        omega

end Chain

/-! ## Two pages -/

/-- A link as GitHub writes it. -/
def linkTo (url relation : String) : LinkValue := ⟨url, relation, "", " ", "", ""⟩

/-- A listing of two pages of one item, the second of which has this URL. -/
def twoPages (url : String) : List ListedPage :=
  [⟨linkTo "https://api.github.com/issues?per_page=100" "next", .arr [.null], [], []⟩,
    ⟨linkTo url "next", .arr [.null],
      [linkTo "https://api.github.com/issues?per_page=100" "prev"], []⟩]

/-- A service with a credential and three retries. -/
def plainSettings : GitHubHttpSettings :=
  ⟨"https://api.github.com", "opifex", some "github_pat_1", 3⟩

/-- A client that has sent nothing and stored nothing. -/
def freshClient : GitHubClient :=
  ⟨EtagCache.create 100, ⟨KeyMap.empty, 0, 0⟩, 0⟩

/-- A text that spells a URL, with its query. -/
def plainUrls : UrlStandard := fun url query =>
  match query with
  | [] => some url
  | query =>
    some (url ++ "?" ++ "&".intercalate (query.map fun entry => entry.1 ++ "=" ++ entry.2))

/-- A response in full, without an ETag. -/
def fresh (body : JsonValue) (link : Option String) : HttpResponse :=
  ⟨200, "OK", none, link, none, ⟨none, none, none, none⟩, body⟩

/-- The first page at its URL, and the second anywhere else. -/
def sendingTwoPages (url : String) : Network where
  answer _ request :=
    if request.url = "https://api.github.com/issues?per_page=100" then
      .ok (fresh (.arr [.null]) (headerOf (twoPages url)))
    else .ok (fresh (.arr [.null]) (headerOf (twoPages url).tail))
  now _ := 0

theorem wellFormed_linkTo {url relation : String} (hne : url ≠ "")
    (hurl : '>' ∉ url.toList) (hquote : '"' ∉ relation.toList)
    (hrelation : '>' ∉ relation.toList) : (linkTo url relation).WellFormed := by
  refine ⟨hne, hurl, hquote, hrelation, fun c hc => ?_⟩
  have hblanks : "".toList ++ "".toList ++ " ".toList ++ "".toList = [' '] := by decide
  rw [show (linkTo url relation).first.toList ++ (linkTo url relation).before.toList ++
    (linkTo url relation).after.toList ++ (linkTo url relation).last.toList = [' ']
    from hblanks] at hc
  exact Or.inl (List.mem_singleton.mp hc)

theorem isListing_twoPages {url : String} (habsolute : IsAbsolute "https://api.github.com" url)
    (hne : url ≠ "" ∧ url ≠ "https://api.github.com/issues?per_page=100")
    (hurl : '>' ∉ url.toList) :
    IsListing (sendingTwoPages url) plainSettings plainUrls "/issues" {} 100 (twoPages url)
      freshClient := by
  have hpages : ∀ earlier page pages, twoPages url = earlier ++ page :: pages →
      (page :: pages = twoPages url ∨ page :: pages = (twoPages url).tail) := by
    intro earlier page pages hchain
    cases earlier with
    | nil => exact Or.inl hchain.symm
    | cons first earlier =>
      cases earlier with
      | nil => exact Or.inr (List.cons.inj hchain).2.symm
      | cons second earlier =>
        have hlength := congrArg List.length hchain
        simp [twoPages] at hlength
  have hfirst : buildUrl plainSettings plainUrls "/issues" [("per_page", toString 100)]
      = some "https://api.github.com/issues?per_page=100" := by decide
  refine ⟨⟨_, rfl, by decide⟩, hfirst, ⟨?_, fun page _ => ⟨_, rfl⟩, ?_⟩, ?_, ?_⟩
  · intro page hpage
    obtain rfl | hpage := List.mem_cons.mp hpage
    · exact ⟨by decide, by decide⟩
    · rw [List.mem_singleton.mp hpage]
      exact habsolute
  · intro earlier page pages hchain n request haddress _
    have hrequest : page.link.url = request.url := Option.some.inj haddress
    obtain heq | heq := hpages earlier page pages hchain
    · obtain ⟨rfl, rfl⟩ := List.cons.inj heq
      exact ⟨_, if_pos hrequest.symm, Or.inl ⟨rfl, rfl, rfl⟩⟩
    · obtain ⟨rfl, rfl⟩ := List.cons.inj heq
      refine ⟨_, if_neg ?_, Or.inl ⟨rfl, rfl, rfl⟩⟩
      rw [← hrequest]
      exact hne.2
  · intro page hpage
    obtain rfl | hpage := List.mem_cons.mp hpage
    · refine ⟨wellFormed_linkTo (by decide) (by decide) (by decide) (by decide), rfl, ?_⟩
      exact fun link hlink => absurd hlink List.not_mem_nil
    · rw [List.mem_singleton.mp hpage]
      refine ⟨wellFormed_linkTo hne.1 hurl (by decide) (by decide), rfl, fun link hlink => ?_⟩
      rw [List.mem_singleton.mp hlink]
      exact ⟨wellFormed_linkTo (by decide) (by decide) (by decide) (by decide), by decide⟩
  · exact fun earlier page pages _ address _ entry hentry => nomatch hentry

/-- Two pages are two pages. -/
theorem paginates_two_pages :
    ReturnsAll (sendingTwoPages "https://api.github.com/issues?per_page=100&page=2")
      plainSettings plainUrls "/issues" {} 100 10 arrayItems
      (twoPages "https://api.github.com/issues?per_page=100&page=2") freshClient :=
  (paginates_iff (isListing_twoPages (by decide) (by decide)
    (by decide)) (by decide)).1 (by decide)

/-- **With a comma in the URL of the second page** the first page is reported as all
there is. -/
theorem stops_at_a_comma :
    IsListing (sendingTwoPages "https://api.github.com/issues?labels=a,b&page=2")
        plainSettings plainUrls "/issues" {} 100
        (twoPages "https://api.github.com/issues?labels=a,b&page=2") freshClient
      ∧ ¬ReturnsAll (sendingTwoPages "https://api.github.com/issues?labels=a,b&page=2")
        plainSettings plainUrls "/issues" {} 100 2 arrayItems
        (twoPages "https://api.github.com/issues?labels=a,b&page=2") freshClient := by
  have hlisting : IsListing
      (sendingTwoPages "https://api.github.com/issues?labels=a,b&page=2")
      plainSettings plainUrls "/issues" {} 100
      (twoPages "https://api.github.com/issues?labels=a,b&page=2") freshClient :=
    isListing_twoPages (by decide) (by decide) (by decide)
  refine ⟨hlisting, ?_⟩
  rintro ⟨result, after, hpaginate, hitems, -⟩
  obtain ⟨result', after', hpaginate', hitems', -⟩ :=
    paginate_seen arrayItems hlisting 2 (by decide)
  obtain rfl : result = result' :=
    Except.ok.inj (Prod.mk.inj (hpaginate.symm.trans hpaginate')).1
  have hlength := congrArg List.length (hitems.symm.trans hitems')
  revert hlength
  decide

end Opifex
