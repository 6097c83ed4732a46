import Mathlib.Data.List.TakeDrop
import Outline.Proofs.Rule.Requests

/-!
# Links to blocked domains

**A link to a blocked domain is reported if its scheme is in small letters**; an address whose
scheme has a capital letter, though it leads to the same host, passes as one of another scheme
(`linkRule_blocked`).

* `LeadsToBlocked`: an address with the scheme of a page, whose host lies in a blocked domain;
* `targetOf_of_leadsToBlocked`: where the address is taken to lead.
-/

namespace Outline

/-- **An address that leads to a blocked domain**: its scheme, in small or capital letters, is that
of a page, and its host lies in the domain. -/
structure LeadsToBlocked (r : LinkRules) (url host : String) : Prop where
  scheme : ∃ scheme rest, url.toList = scheme ++ "://".toList ++ rest ∧
    (scheme.map Char.toLower = "http".toList ∨ scheme.map Char.toLower = "https".toList)
  parts : ∃ parts, splitAddress url = .ok parts ∧ hostOf parts.authority = host
  blocked : ∃ d ∈ r.blockedDomains, InDomain host d

/-- What a link to a host in a blocked domain is reported with. -/
def blockedMessage (host : String) : String := "Link to blocked domain: " ++ host

/-! ## Schemes -/

theorem isAsciiLetter_of_toLower {c : Char} (h : isAsciiLetter c.toLower = true) :
    isAsciiLetter c = true := by
  unfold Char.toLower at h
  split at h
  · rename_i hupper
    obtain ⟨hfirst, hlast⟩ := hupper
    have hfirst : 65 ≤ c.toNat := hfirst
    have hlast : c.toNat ≤ 90 := hlast
    simp [isAsciiLetter, hfirst, hlast]
  · exact h

/-- A text that is all letters is a scheme if a colon follows. -/
theorem splitScheme_of_letters {scheme rest : List Char} (hne : scheme ≠ [])
    (hletters : ∀ c ∈ scheme, isAsciiLetter c = true) :
    splitScheme (scheme ++ ':' :: rest) = (some scheme, rest) := by
  have hcolon : ∀ c ∈ scheme, (c != ':') = true := by
    intro c hc
    rw [bne_iff_ne]
    rintro rfl
    exact absurd (hletters _ hc) (by decide)
  have hchars : scheme.all isSchemeChar = true := by
    refine List.all_eq_true.2 fun c hc => ?_
    simp [isSchemeChar, isAsciiAlnum, hletters c hc]
  unfold splitScheme
  rw [List.span_eq_takeWhile_dropWhile, List.takeWhile_append_of_pos hcolon,
    List.dropWhile_append_of_pos hcolon, List.takeWhile_cons_of_neg (by decide),
    List.dropWhile_cons_of_neg (by decide), List.append_nil]
  obtain ⟨c, cs, rfl⟩ := List.exists_cons_of_ne_nil hne
  dsimp only
  rw [hletters c List.mem_cons_self, hchars]
  rfl

section

variable {r : LinkRules} {url host : String}

/-- An address that leads to a blocked domain is taken for a page, or for one of another scheme. -/
theorem targetOf_of_leadsToBlocked (h : LeadsToBlocked r url host) :
    targetOf url = if IsPage url then .page else .otherScheme := by
  split
  · rename_i hpage
    exact targetOf_of_page hpage
  · rename_i hpage
    obtain ⟨scheme, rest, hurl, hscheme⟩ := h.scheme
    have hletters : ∀ c ∈ scheme, isAsciiLetter c = true := by
      intro c hc
      refine isAsciiLetter_of_toLower ?_
      rcases hscheme with hscheme | hscheme <;>
        · have hlower := List.mem_map_of_mem (f := Char.toLower) hc
          rw [hscheme] at hlower
          revert hlower
          generalize c.toLower = lower
          revert lower
          decide
    obtain ⟨c, cs, rfl⟩ : ∃ c cs, scheme = c :: cs := by
      refine List.exists_cons_of_ne_nil ?_
      rintro rfl
      rcases hscheme with h | h <;> cases h
    have hsplit : splitScheme url.toList = (some (c :: cs), "//".toList ++ rest) := by
      rw [hurl, List.append_assoc]
      exact splitScheme_of_letters (List.cons_ne_nil c cs) hletters
    have hhead : url.toList.head? ≠ some '#' := by
      rw [hurl]
      rintro hc
      cases hc
      exact absurd (hletters '#' List.mem_cons_self) (by decide)
    rw [targetOf_of_not_page hpage hhead, hsplit]
    rfl

/-- The host of a page in a blocked domain is refused. -/
theorem checkHost_of_leadsToBlocked (h : LeadsToBlocked r url host) :
    checkHost r url = .error (blockedMessage host) := by
  obtain ⟨parts, hparts, rfl⟩ := h.parts
  obtain ⟨d, hd, hin⟩ := h.blocked
  unfold checkHost
  rw [hparts]
  dsimp only
  rw [if_pos (List.any_eq_true.2 ⟨d, hd, isInDomain_iff.2 hin⟩)]
  rfl

variable {network : Option Web} {around : Surroundings} {c : Context} {l : Link}

/-- The verdict on a link to a blocked domain. -/
theorem linkVerdict_of_leadsToBlocked (h : LeadsToBlocked r l.url host) :
    linkVerdict network around r c l =
      if IsPage l.url then some (reported "link" (blockedMessage host) (l.line, l.column))
      else none := by
  have hmessage : (linkMessage network around r c l.url).Sends
      (.ok (if IsPage l.url then some (blockedMessage host) else none)) [] := by
    have htarget := targetOf_of_leadsToBlocked h
    unfold linkMessage checkPage
    by_cases hpage : IsPage l.url
    · rw [if_pos hpage] at htarget ⊢
      rw [htarget, checkHost_of_leadsToBlocked h]
      exact Run.sends_pure _
    · rw [if_neg hpage] at htarget ⊢
      rw [htarget]
      exact Run.sends_pure _
  unfold linkVerdict
  rw [hmessage.journal]
  split <;> rfl

end

/-- **A link to a blocked domain is reported** by the rule on links if its scheme is in small
letters, and not at all if it is not. The rule has no result if a page that is to be requested
cannot be. -/
theorem linkRule_blocked {c : Context} {r : LinkRules} (hr : c.schema.links = some r) {l : Link}
    (hl : l ∈ c.document.links) {host : String} (h : LeadsToBlocked r l.url host)
    (around : Surroundings) (atHand : Option Web) (j : Journal) :
    let verdict := linkVerdict (networkFor atHand around r) around r c
    verdict l = (if IsPage l.url then
        some (reported "link" (blockedMessage host) (l.line, l.column)) else none) ∧
      (IsPage l.url → reported "link" (blockedMessage host) (l.line, l.column) ∈
        c.document.links.filterMap verdict) ∧
      ((linkRule around c atHand).result j).1 =
        if ∀ l' ∈ c.dueLinks r, Reached (atHand.getD around.web) l'.url then
          .ok (c.document.links.filterMap verdict)
        else .error .badRequest := by
  intro verdict
  have hverdict : verdict l = _ := linkVerdict_of_leadsToBlocked h
  refine ⟨hverdict, fun hpage => ?_, ?_⟩
  · rw [if_pos hpage] at hverdict
    exact List.mem_filterMap.2 ⟨l, hl, hverdict⟩
  · split
    · rename_i hreached
      exact (sends_linkRule_of_reached hr hreached j).1
    · rename_i hreached
      exact linkRule_eq_badRequest hr hreached j

/-! ### Small and capital letters -/

theorem linkRule_blocked_pages : ∃ vs,
    ((linkRule wholeSurroundings pagesContext).result {}).1 = .ok vs ∧
      reported "link" "Link to blocked domain: www.b.com" (1, 20) ∈ vs := by
  have hblocked : LeadsToBlocked pageRules "https://www.b.com/" "www.b.com" :=
    ⟨⟨"https".toList, "www.b.com/".toList, rfl, .inr (by decide)⟩,
      ⟨⟨"https", "www.b.com"⟩, by decide +kernel, by decide +kernel⟩,
      ⟨"b.com", List.mem_singleton_self _, by decide +kernel⟩⟩
  have hl : ⟨"https://www.b.com/", "y", 1, 20⟩ ∈ pagesContext.document.links := by decide
  obtain ⟨-, hreported, hrun⟩ :=
    linkRule_blocked (c := pagesContext) rfl hl hblocked wholeSurroundings none {}
  rw [if_pos (by decide +kernel)] at hrun
  exact ⟨_, hrun, hreported (by decide)⟩

/-- A schema with a blocked domain. -/
def blockedSchema : Value :=
  .map [(.str "links", .map [(.str "blocked_domains", .list [.str "evil.com"])])]

/-- **A scheme in capital letters lets a link to a blocked domain pass.** -/
theorem linkRule_capitalScheme :
    LeadsToBlocked { blockedDomains := ["evil.com"] } "HTTP://evil.com/" "evil.com" ∧
      (parseDocument "[a](HTTP://evil.com/)\n" "").toOption.map (·.links.map (·.url)) =
        some ["HTTP://evil.com/"] ∧
      (linkRun? "[a](HTTP://evil.com/)\n" blockedSchema).map (·.1.toOption) = some (some []) := by
  refine ⟨⟨?_, ?_, ?_⟩, by decide +kernel, by decide +kernel⟩
  · exact ⟨"HTTP".toList, "evil.com/".toList, rfl, .inl (by decide)⟩
  · exact ⟨⟨"http", "evil.com"⟩, by decide +kernel, by decide +kernel⟩
  · exact ⟨"evil.com", List.mem_singleton_self _, by decide +kernel⟩

end Outline
