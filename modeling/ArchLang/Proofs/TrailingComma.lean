import ArchLang.Assembly.Program
import ArchLang.Proofs.NameLists
import ArchLang.Proofs.Places
import ArchLang.Proofs.Rescanning

/-!
# A trailing comma

A list of names may end with a comma, and one would like such a comma to make no difference.  This
file puts one in behind the last name of a list, in the text of the source, and follows it through
the lexer (`Proofs.Rescanning`) and the parser (`Proofs.NameLists`).  The tokens behind it all move
by one byte, which shows in the spans of the declarations and nowhere else (`Proofs.Places`).

* `tokensFrom` — the tokens from a byte of the source on.
* `withComma` — the source with a comma put in at a byte.
* `tokensOf_withComma` — its tokens are those of the source with a comma among them.
* **`comma_behind_list`** — the declarations stay the same if no name comes next, and otherwise the
  source is refused.
* **`comma_behind_list_not_always_inert`** — a source that is refused.
-/

namespace ArchLang

open ArchLang.Parser ArchLang.Grammar

/-! ## What stands behind a place -/

/-- The tokens from a byte of the source on. -/
def tokensFrom (start : ℕ) (tokens : Tokens) : Tokens :=
  tokens.dropWhile fun t => t.span.start < start

/-- The tokens before the end of a token begin before it, and those behind it do not. -/
lemma tokensFrom_of_tiles {start stop : ℕ} {u post : Tokens} {tok : Located Token}
    (h : Tiles start ((u ++ tok :: post).map (·.span)) stop) :
    start < tok.span.stop ∧ tokensFrom tok.span.stop (u ++ tok :: post) = post := by
  induction u generalizing start with
  | nil =>
      obtain ⟨hstart, hlt, hpost⟩ := h
      refine ⟨hstart ▸ hlt, ?_⟩
      have hfirst : tokensFrom tok.span.stop post = post := by
        cases post with
        | nil => rfl
        | cons y post =>
            obtain ⟨hy, -, -⟩ := hpost
            exact List.dropWhile_cons_of_neg (by simp [hy])
      rw [List.nil_append, tokensFrom, List.dropWhile_cons_of_pos (by simpa using hlt)]
      exact hfirst
  | cons y u ih =>
      obtain ⟨hstart, hlt, hrest⟩ := h
      obtain ⟨hstop, hfrom⟩ := ih hrest
      have hbefore : y.span.start < tok.span.stop := hlt.trans hstop
      refine ⟨hstart ▸ hbefore, ?_⟩
      rw [List.cons_append, tokensFrom, List.dropWhile_cons_of_pos (by simpa using hbefore)]
      exact hfrom

/-! ## A comma in the source -/

/-- The source with a comma put in at a byte. -/
def withComma (place : ℕ) (source : String) : String :=
  (Span.between 0 place).slice source ++ "," ++
    (Span.between place source.utf8ByteSize).slice source

lemma withComma_append (before behind : List Char) :
    withComma (byteLength before) (String.ofList (before ++ behind))
      = String.ofList (before ++ ',' :: behind) := by
  have hbefore := slice_between [] before behind
  have hbehind := slice_between before behind []
  rw [List.append_nil] at hbehind
  have hsize : (String.ofList (before ++ behind)).utf8ByteSize
      = byteLength before + byteLength behind := by
    rw [String.utf8ByteSize_ofList, utf8Len_eq_byteLength, byteLength_append]
  simp only [byteLength_nil, Nat.zero_add, List.nil_append] at hbefore
  have hcomma : "," = String.ofList [','] := rfl
  rw [withComma, hsize, hbefore, hbehind, hcomma, ← String.ofList_append, ← String.ofList_append,
    List.append_assoc, List.singleton_append]

lemma Lexed.follower?_of_hyphen {offset : ℕ} {cs : List Char} {ts : Tokens}
    (h : Lexed offset cs ts) (hcs : cs.head? = some '-') : follower? ts = some (.mark .arrow) := by
  cases h with
  | nil => cases hcs
  | @cons _ c cs lexeme rest t ts hscan hrest =>
      obtain rfl : c = '-' := by simpa using hcs
      obtain ⟨rfl, -⟩ := arrow_of_scan hscan
      rfl

/-- A comma closes every name, but for one that is spelled like a reserved word. -/
lemma closes_comma {t : Token} {behind : List Char} (ht : nameOf t ≠ none) (h : Closes t behind)
    (hhyphen : behind.head? ≠ some '-') (rest : List Char) : Closes t (',' :: rest) := by
  cases t with
  | identifier name =>
      refine ⟨⟨fun c hc => ?_, fun hcons => ?_⟩, fun hkeyword => absurd (h.2 hkeyword) hhyphen⟩
      · obtain rfl : ',' = c := by simpa using hc
        rfl
      · cases hcons
  | stringLiteral text => trivial
  | _ => exact absurd rfl ht

lemma unplaced_of_values {s s' : Tokens} (h : s.map (·.value) = s'.map (·.value)) :
    unplaced s = unplaced s' := by
  have hunplaced : ∀ s : Tokens, unplaced s = (s.map (·.value)).map (Located.mk · Span.origin) :=
    fun s => by rw [List.map_map]; rfl
  rw [hunplaced, hunplaced, h]

/-- The tokens of a source with a comma behind one of its names: but for places they are the same
with a comma among them. -/
lemma tokensOf_withComma {source : String} {u post : Tokens} {tok : Located Token}
    (h : tokensOf source = .ok (u ++ tok :: post)) (hname : nameOf tok.value ≠ none)
    (harrow : follower? post ≠ some (.mark .arrow)) :
    ∃ ts c, tokensOf (withComma tok.span.stop source) = .ok ts ∧ c.value = .mark .comma ∧
      unplaced ts = unplaced (u ++ tok :: c :: post) := by
  obtain ⟨before, behind, hsource, hstop, -, hcloses, hbehind, hsplice⟩ :=
    (tokensOf_eq_ok_iff.1 h).splice
  have hhyphen : behind.head? ≠ some '-' :=
    fun hhyphen => harrow (hbehind.follower?_of_hyphen hhyphen)
  obtain ⟨post', hpost', hvalues⟩ := hbehind.exists_shifted (tok.span.stop + byteLength [','])
  have hcomma : scan ',' behind = .token (.mark .comma) [','] behind := rfl
  have hlexed := hsplice (closes_comma hname hcloses hhyphen behind) (.cons hcomma hpost')
  have hedited : (withComma tok.span.stop source).toList = before ++ ',' :: behind := by
    rw [hstop, Nat.zero_add, ← String.ofList_toList (s := source), hsource, withComma_append,
      String.toList_ofList]
  refine ⟨_, ⟨.mark .comma, .origin⟩, tokensOf_eq_ok_iff.2 (hedited ▸ hlexed), rfl,
    unplaced_of_values ?_⟩
  simp [hvalues]

/-! ## The names of a list in a source -/

lemma declarationsOf_of_tokens {source : String} {ts : Tokens} (h : tokensOf source = .ok ts) :
    declarationsOf source = (declarationsOfTokens ts).mapError fun d => ⟨[d]⟩ := by
  unfold declarationsOf
  rw [h]
  dsimp only
  cases declarationsOfTokens ts <;> rfl

/-- **A comma behind a list of names.**  Let a source be accepted, and let a name of one of its
lists have no comma behind it, so that it is the last name and the list has no trailing comma.  With
a comma put in behind that name, the source is accepted as the same declarations, unless the next
token that counts is a name, too.  Then the list takes that name, the key of the next line, and the
colon behind it is unexpected. -/
theorem comma_behind_list {source : String} {ts : Tokens} {ds : List (Located Declaration)}
    {x : Text} (htokens : tokensOf source = .ok ts) (hds : declarationsOf source = .ok ds)
    (hx : x ∈ ds.flatMap fun d => d.value.listed)
    (hlast : follower? (tokensFrom x.span.stop ts) ≠ some (.mark .comma)) :
    ((follower? (tokensFrom x.span.stop ts)).bind nameOf = none →
      ∃ ds', declarationsOf (withComma x.span.stop source) = .ok ds' ∧ unplaced ds' = unplaced ds) ∧
    ((follower? (tokensFrom x.span.stop ts)).bind nameOf ≠ none →
      ∃ d, declarationsOf (withComma x.span.stop source) = .error ⟨[d]⟩ ∧
        d.code = some .unexpectedToken) := by
  rw [declarationsOf_of_tokens htokens] at hds
  cases hread : declarations ts with
  | failed e => simp [declarationsOfTokens, hread, Except.mapError] at hds
  | done ds' r =>
  obtain rfl : ds' = ds := by simpa [declarationsOfTokens, hread, Except.mapError] using hds
  obtain ⟨u, tok, post, rfl, ⟨hname, hspan⟩, -, hcomma⟩ := Edits.exists_name hread x hx
  rw [← hspan, (tokensFrom_of_tiles (tokensOf_eq_ok_iff.1 htokens).tiles).2] at hlast ⊢
  have htakes := hcomma hlast
  obtain ⟨ts', c, htokens', hc, hplaces⟩ := tokensOf_withComma htokens (by simp [hname])
    fun harrow => absurd (htakes.mark_eq _ harrow) (by decide)
  obtain ⟨hok, herror⟩ := declarationsOfTokens_of_unplaced_eq hplaces.symm
  rw [declarationsOf_of_tokens htokens']
  refine ⟨fun hnext => ?_, fun hnext => ?_⟩
  · obtain ⟨ds'', hds'', hsame⟩ := hok ds' (by
      rw [declarationsOfTokens, htakes.inert c hc hnext])
    exact ⟨ds'', by rw [hds'']; rfl, hsame⟩
  · obtain ⟨e, he, hrest⟩ := htakes.refused c hc hnext
    obtain ⟨d, hd, hcode⟩ := herror _ (by rw [declarationsOfTokens, he])
    exact ⟨d, by rw [hd]; rfl, hcode.trans (Failure.code_of_not_blank hrest _)⟩

/-- The tokens of `service S\x7bdomains:A`. -/
def listTokens : Tokens :=
  [⟨.keyword .service, .between 0 7⟩, ⟨.whitespace, .between 7 8⟩,
    ⟨.identifier "S", .between 8 9⟩, ⟨.mark .leftBrace, .between 9 10⟩,
    ⟨.keyword .domains, .between 10 17⟩, ⟨.mark .colon, .between 17 18⟩,
    ⟨.identifier "A", .between 18 19⟩]

/-- The tokens of ` language:go\x7d` from a byte on. -/
def languageTokens (start : ℕ) : Tokens :=
  [⟨.whitespace, .between start (start + 1)⟩,
    ⟨.identifier "language", .between (start + 1) (start + 9)⟩,
    ⟨.mark .colon, .between (start + 9) (start + 10)⟩,
    ⟨.identifier "go", .between (start + 10) (start + 12)⟩,
    ⟨.mark .rightBrace, .between (start + 12) (start + 13)⟩]

/-- A service `S` with the domain `A` and with more properties. -/
def listService (more : List PropertyDecl) (stop : ℕ) : Located Declaration :=
  ⟨.service ⟨⟨"S", .between 8 9⟩, .domains [⟨"A", .between 18 19⟩] :: more⟩, .between 0 stop⟩

/-- Before a closing brace the comma changes nothing, before a line it is refused. -/
theorem comma_behind_list_domains :
    (∃ ds', declarationsOf (withComma 19 "service S\x7bdomains:A\x7d") = .ok ds' ∧
      unplaced ds' = unplaced [listService [] 20]) ∧
    ∃ d, declarationsOf (withComma 19 "service S\x7bdomains:A language:go\x7d") = .error ⟨[d]⟩ ∧
      d.code = some .unexpectedToken := by
  have hclosing : tokensOf "service S\x7bdomains:A\x7d"
      = .ok (listTokens ++ [⟨.mark .rightBrace, .between 19 20⟩]) := by decide +kernel
  have hline : tokensOf "service S\x7bdomains:A language:go\x7d"
      = .ok (listTokens ++ languageTokens 19) := by decide +kernel
  have hclosed : declarationsOf "service S\x7bdomains:A\x7d" = .ok [listService [] 20] := by
    rw [declarationsOf_of_tokens hclosing]
    decide +kernel
  have hread : declarationsOf "service S\x7bdomains:A language:go\x7d"
      = .ok [listService [.language ⟨"go", .between 29 31⟩] 32] := by
    rw [declarationsOf_of_tokens hline]
    decide +kernel
  have hname : ∀ {more stop}, (⟨"A", .between 18 19⟩ : Text) ∈
      [listService more stop].flatMap fun d => d.value.listed := by
    intro more stop
    exact List.mem_cons_self
  exact ⟨(comma_behind_list hclosing hclosed hname (by decide)).1 (by decide),
    (comma_behind_list hline hread hname (by decide)).2 (by decide)⟩

/-- A trailing comma is not always allowed. -/
theorem comma_behind_list_not_always_inert :
    ¬ ∀ source ts ds x, tokensOf source = .ok ts → declarationsOf source = .ok ds →
      x ∈ ds.flatMap (fun d => d.value.listed) →
      follower? (tokensFrom x.span.stop ts) ≠ some (.mark .comma) →
      ∃ ds', declarationsOf (withComma x.span.stop source) = .ok ds' ∧
        unplaced ds' = unplaced ds := by
  intro h
  have hline : tokensOf "service S\x7bdomains:A language:go\x7d"
      = .ok (listTokens ++ languageTokens 19) := by decide +kernel
  have hread : declarationsOf "service S\x7bdomains:A language:go\x7d"
      = .ok [listService [.language ⟨"go", .between 29 31⟩] 32] := by
    rw [declarationsOf_of_tokens hline]
    decide +kernel
  obtain ⟨ds', hds', -⟩ :=
    h _ _ _ ⟨"A", .between 18 19⟩ hline hread List.mem_cons_self (by decide)
  have hedited : withComma 19 "service S\x7bdomains:A language:go\x7d"
      = "service S\x7bdomains:A, language:go\x7d" := by decide
  have htokens : tokensOf "service S\x7bdomains:A, language:go\x7d"
      = .ok (listTokens ++ ⟨.mark .comma, .between 19 20⟩ :: languageTokens 20) := by decide +kernel
  have hfailed : (declarationsOfTokens
      (listTokens ++ ⟨.mark .comma, .between 19 20⟩ :: languageTokens 20)).isOk = false := by
    decide +kernel
  rw [show (Span.between 18 19).stop = 19 from rfl, hedited,
    declarationsOf_of_tokens htokens] at hds'
  cases hcase : declarationsOfTokens
      (listTokens ++ ⟨.mark .comma, .between 19 20⟩ :: languageTokens 20) with
  | ok ds =>
      rw [hcase] at hfailed
      cases hfailed
  | error d =>
      rw [hcase] at hds'
      cases hds'

end ArchLang
