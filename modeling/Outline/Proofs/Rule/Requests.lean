import Mathlib.Data.List.Chain
import Outline.Document.Build
import Outline.Proofs.Rule.Run
import Outline.Rule.Link
import Outline.Schema.Load

/-!
# Requests for pages

**The rule on links requests exactly the pages that are due**, in the order of their links: those
with a host that is not blocked and allowed, if pages are to be requested at all
(`linkRule_requests`). It looks at each link by itself, so that each has one violation or none. All
this ends at the first address that no request can be sent to.

* `Run.Sends`: a computation with a result and requests;
* `InDomain`: a host is a domain, or lies in it;
* `Due`: a page is to be requested;
* `Asks`: the request for an address, and those that redirects lead to;
* `Reached`: all of them can be sent.
-/

namespace Outline

/-! ## Computations with requests -/

namespace Run

variable {α β : Type}

/-- **A computation with a result and requests**, whatever the journal holds. -/
def Sends (r : Run α) (outcome : Except Fault α) (requests : List HeadRequest) : Prop :=
  ∀ j, (r.result j).1 = outcome ∧ (r.result j).2.requests = j.requests ++ requests

theorem sends_pure (a : α) : (pure a : Run α).Sends (.ok a) [] :=
  fun j => ⟨rfl, (List.append_nil j.requests).symm⟩

theorem sends_ite {p : Prop} [Decidable p] (a b : α) :
    (if p then pure a else pure b : Run α).Sends (.ok (if p then a else b)) [] := by
  split
  · exact sends_pure a
  · exact sends_pure b

theorem sends_throw (f : Fault) : (throw f : Run α).Sends (.error f) [] :=
  fun j => ⟨rfl, (List.append_nil j.requests).symm⟩

theorem sends_debug (part text : String) : (Run.debug part text).Sends (.ok ()) [] :=
  fun j => ⟨rfl, (List.append_nil j.requests).symm⟩

theorem sends_request (q : HeadRequest) : (Run.request q).Sends (.ok ()) [q] :=
  fun _ => ⟨rfl, rfl⟩

namespace Sends

variable {r : Run α} {f : α → Run β} {a : α} {e : Fault} {requests : List HeadRequest}

theorem journal {outcome : Except Fault α} (h : r.Sends outcome requests) :
    r.journal.1 = outcome := (h {}).1

theorem bind {outcome : Except Fault β} {more : List HeadRequest} (hr : r.Sends (.ok a) requests)
    (hf : (f a).Sends outcome more) : (r >>= f).Sends outcome (requests ++ more) := by
  intro j
  have hresult : r.result j = (.ok a, (r.result j).2) := Prod.ext (hr j).1 rfl
  rw [result_bind_of_ok hresult f, ← List.append_assoc, ← (hr j).2]
  exact hf _

theorem bind_error (hr : r.Sends (.error e) requests) : (r >>= f).Sends (.error e) requests := by
  intro j
  obtain ⟨houtcome, hrequests⟩ := hr j
  rw [result_bind]
  generalize r.result j = first at houtcome hrequests
  rcases first with ⟨_ | a, j'⟩
  · exact ⟨congrArg Except.error (Except.error.inj houtcome), hrequests⟩
  · cases houtcome

theorem andThen {outcome : Except Fault β} (hr : r.Sends (.ok a) requests)
    (hf : (f a).Sends outcome []) : (r >>= f).Sends outcome requests := by
  have h := hr.bind hf
  rwa [List.append_nil] at h

theorem map {g : α → β} (hr : r.Sends (.ok a) requests) :
    (r >>= fun a => pure (g a)).Sends (.ok (g a)) requests := hr.andThen (sends_pure (g a))

theorem forM_request (g : α → HeadRequest) (l : List α) :
    (l.forM fun a => Run.request (g a)).Sends (.ok ()) (l.map g) := by
  induction l with
  | nil => exact sends_pure ()
  | cons a l ih =>
    rw [List.forM_eq_forM, List.forM_cons]
    exact (sends_request (g a)).bind ih

section

variable {result : α → β} {asked : α → List HeadRequest}

/-- The results and the requests of computations on the members of a list. -/
theorem mapM {l : List α} (h : ∀ a ∈ l, (f a).Sends (.ok (result a)) (asked a)) :
    (l.mapM f).Sends (.ok (l.map result)) (l.flatMap asked) := by
  induction l with
  | nil => exact sends_pure []
  | cons a l ih =>
    obtain ⟨ha, hl⟩ := List.forall_mem_cons.1 h
    rw [List.mapM_cons]
    exact ha.bind (ih hl).map

/-- Computations on the members of a list end with the first one that ends in a fault. -/
theorem mapM_error {before : List α} (after : List α)
    (h : ∀ a ∈ before, (f a).Sends (.ok (result a)) (asked a))
    (ha : (f a).Sends (.error e) requests) :
    ((before ++ a :: after).mapM f).Sends (.error e) (before.flatMap asked ++ requests) := by
  induction before with
  | nil =>
    rw [List.nil_append, List.mapM_cons]
    exact ha.bind_error
  | cons b before ih =>
    obtain ⟨hb, hbefore⟩ := List.forall_mem_cons.1 h
    rw [List.cons_append, List.mapM_cons, List.flatMap_cons, List.append_assoc]
    exact hb.bind (ih hbefore).bind_error

end

end Sends

end Run

/-! ## Hosts -/

/-- **A host is a domain, or lies in it**, in small or capital letters. -/
def InDomain (host domain : String) : Prop :=
  lowerChars host.toList = lowerChars domain.toList ∨
    '.' :: lowerChars domain.toList <:+ lowerChars host.toList

theorem isInDomain_iff {host domain : String} :
    isInDomain host domain = true ↔ InDomain host domain := by
  simp only [isInDomain, InDomain, Bool.or_eq_true, beq_iff_eq, Text.endsWith,
    List.isSuffixOf_iff_suffix]

instance (host domain : String) : Decidable (InDomain host domain) :=
  decidable_of_iff _ isInDomain_iff

/-- An address of a page: it begins with `http://` or `https://`, in small letters. -/
def IsPage (url : String) : Prop :=
  "http://".toList <+: url.toList ∨ "https://".toList <+: url.toList

theorem isPage_iff {url : String} : (Text.startsWith "http://".toList url.toList ||
    Text.startsWith "https://".toList url.toList) = true ↔ IsPage url := by
  rw [Bool.or_eq_true, Text.startsWith, Text.startsWith, List.isPrefixOf_iff_prefix,
    List.isPrefixOf_iff_prefix, IsPage]

instance (url : String) : Decidable (IsPage url) := decidable_of_iff _ isPage_iff

theorem targetOf_of_page {url : String} (h : IsPage url) : targetOf url = .page := by
  have hhead : url.toList.head? = some 'h' := by
    rcases h with ⟨rest, h⟩ | ⟨rest, h⟩ <;>
      · rw [← h]
        rfl
  unfold targetOf
  dsimp only
  rw [if_neg (by rw [hhead]; decide), if_pos (isPage_iff.2 h)]

/-- An address of no page and no anchor leads elsewhere, which its scheme tells. -/
theorem targetOf_of_not_page {url : String} (h : ¬IsPage url)
    (hhead : url.toList.head? ≠ some '#') :
    targetOf url = if (splitScheme url.toList).1.isSome then .otherScheme else .file := by
  unfold targetOf
  dsimp only
  rw [if_neg (by rwa [beq_iff_eq]), if_neg (mt isPage_iff.1 h)]
  split <;> simp [*]

theorem targetOf_eq_page_iff {url : String} : targetOf url = .page ↔ IsPage url := by
  refine ⟨fun h => ?_, targetOf_of_page⟩
  by_contra hpage
  by_cases hhead : url.toList.head? = some '#'
  · unfold targetOf at h
    dsimp only at h
    rw [if_pos (by rwa [beq_iff_eq])] at h
    cases h
  · rw [targetOf_of_not_page hpage hhead] at h
    split at h <;> cases h

/-- **A page that is to be requested**: its host can be read, lies in no blocked domain, and in an
allowed one if there are any. -/
structure Due (r : LinkRules) (url : String) : Prop where
  external : r.validateExternal = true
  page : IsPage url
  host : ∃ parts, splitAddress url = .ok parts ∧
    (∀ d ∈ r.blockedDomains, ¬InDomain (hostOf parts.authority) d) ∧
      (r.allowedDomains = [] ∨ ∃ d ∈ r.allowedDomains, InDomain (hostOf parts.authority) d)

theorem checkHost_eq_ok_iff {r : LinkRules} {url : String} : checkHost r url = .ok () ↔
    ∃ parts, splitAddress url = .ok parts ∧
      (∀ d ∈ r.blockedDomains, ¬InDomain (hostOf parts.authority) d) ∧
        (r.allowedDomains = [] ∨ ∃ d ∈ r.allowedDomains, InDomain (hostOf parts.authority) d) := by
  unfold checkHost
  cases splitAddress url with
  | error fault => simp
  | ok parts =>
    simp only [← isInDomain_iff, Except.ok.injEq, exists_eq_left', ← List.any_eq_true,
      ← List.isEmpty_iff]
    split_ifs <;> simp_all [or_iff_not_imp_left]

theorem due_iff {r : LinkRules} {url : String} : Due r url ↔
    r.validateExternal = true ∧ targetOf url = .page ∧ checkHost r url = .ok () := by
  rw [targetOf_eq_page_iff, checkHost_eq_ok_iff]
  exact ⟨fun h => ⟨h.external, h.page, h.host⟩, fun h => ⟨h.1, h.2.1, h.2.2⟩⟩

instance (r : LinkRules) (url : String) : Decidable (Due r url) := decidable_of_iff' _ due_iff

/-! ## Requests -/

/-- The request for the head of a page. -/
def WebAddress.request (timeout : Amount) (a : WebAddress) : HeadRequest :=
  ⟨String.ofList a.text, timeout⟩

/-- The network sends the request for an address on to another one. -/
def WebAddress.SendsOn (web : Web) (a next : WebAddress) : Prop :=
  ∃ code location, web (String.ofList a.text) = .redirect code location ∧
    isRedirect code = true ∧ a.redirected location.toList = .ok next

/-- **The requests for a page**: one for its address, in the form in which it is requested, and one
for each redirect that is followed from there. -/
def Asks (web : Web) (timeout : Amount) (url : String) (requests : List HeadRequest) : Prop :=
  ∃ own followed, readWebAddress url.toList = .ok own ∧
    List.IsChain (WebAddress.SendsOn web) (own.requested :: followed) ∧
      followed.length ≤ redirectLimit ∧
        requests = (own.requested :: followed).map (WebAddress.request timeout)

/-- All requests for a page can be sent. -/
def Reached (web : Web) (url : String) : Prop := (fetchHead web url).2.isSome = true

instance (web : Web) (url : String) : Decidable (Reached web url) :=
  inferInstanceAs (Decidable (_ = _))

/-- A network that sends no request elsewhere. -/
def Web.Direct (web : Web) : Prop :=
  ∀ address code location, web address = .redirect code location → isRedirect code = false

/-- The requests for the head of a page. -/
def requestsFor (web : Web) (timeout : Amount) (url : String) : List HeadRequest :=
  (fetchHead web url).1.map fun address => ⟨address, timeout⟩

/-- One request, which may be sent on to another address. -/
theorem fetchFrom_step (web : Web) (left : Nat) (a : WebAddress) :
    (fetchFrom web left a).1 = [String.ofList a.text] ∨ ∃ left' next, left = left' + 1 ∧
      a.SendsOn web next ∧ fetchFrom web left a =
        (String.ofList a.text :: (fetchFrom web left' next).1, (fetchFrom web left' next).2) := by
  cases hanswer : web (String.ofList a.text) with
  | status code => exact .inl (by cases left <;> simp only [fetchFrom, hanswer])
  | failure words => exact .inl (by cases left <;> simp only [fetchFrom, hanswer])
  | redirect code location =>
    cases hcode : isRedirect code with
    | false => exact .inl (by cases left <;> simp [fetchFrom, hanswer, hcode])
    | true =>
      cases hnext : a.redirected location.toList with
      | error why =>
        left
        cases why <;> cases left <;> simp [fetchFrom, hanswer, hcode, hnext]
      | ok next =>
        cases left with
        | zero => exact .inl (by simp [fetchFrom, hanswer, hcode, hnext])
        | succ left =>
          refine .inr ⟨left, next, rfl, ⟨code, location, hanswer, hcode, hnext⟩, ?_⟩
          conv_lhs => rw [fetchFrom]
          simp [hanswer, hcode, hnext]

/-- The requests from an address on follow redirects, as far as the limit. -/
theorem fetchFrom_fst (web : Web) (left : Nat) : ∀ a : WebAddress, ∃ followed,
    List.IsChain (WebAddress.SendsOn web) (a :: followed) ∧ followed.length ≤ left ∧
      (fetchFrom web left a).1 = (a :: followed).map (String.ofList ·.text) := by
  induction left with
  | zero =>
    intro a
    rcases fetchFrom_step web 0 a with h | ⟨left, next, h, -⟩
    · exact ⟨[], .singleton a, Nat.le_refl 0, h⟩
    · cases h
  | succ left ih =>
    intro a
    rcases fetchFrom_step web (left + 1) a with h | ⟨left', next, hleft, hon, h⟩
    · exact ⟨[], .singleton a, Nat.zero_le _, h⟩
    · obtain rfl := Nat.succ.inj hleft
      obtain ⟨followed, hchain, hlength, hfetched⟩ := ih next
      refine ⟨next :: followed, hchain.cons_cons hon, Nat.succ_le_succ hlength, ?_⟩
      rw [h, hfetched]
      rfl

/-- What is requested for a page are the requests for it, unless its address cannot be requested. -/
theorem asks_requestsFor (web : Web) (timeout : Amount) (url : String) :
    Asks web timeout url (requestsFor web timeout url) ∨ requestsFor web timeout url = [] := by
  unfold Asks requestsFor fetchHead
  split
  · rename_i own hown
    obtain ⟨followed, hchain, hlength, hfetched⟩ := fetchFrom_fst web redirectLimit own.requested
    refine .inl ⟨own, followed, hown, hchain, hlength, ?_⟩
    rw [hfetched, List.map_map]
    rfl
  · exact .inr rfl

theorem Reached.asks {web : Web} {url : String} (h : Reached web url) (timeout : Amount) :
    Asks web timeout url (requestsFor web timeout url) := by
  refine (asks_requestsFor web timeout url).resolve_right fun hnone => ?_
  unfold Reached at h
  unfold requestsFor at hnone
  unfold fetchHead at h hnone
  split at h
  · rename_i own hown
    obtain ⟨followed, -, -, hfetched⟩ := fetchFrom_fst web redirectLimit own.requested
    rw [hown] at hnone
    dsimp only at hnone
    rw [hfetched] at hnone
    cases hnone
  · cases h

namespace Web.Direct

variable {web : Web} (h : web.Direct) {url : String}

include h

/-- Without redirects a page is reached if its address can be requested. -/
theorem reached_iff : Reached web url ↔ ∃ own, readWebAddress url.toList = .ok own := by
  have hanswered : ∀ left a, (fetchFrom web left a).2.isSome = true := by
    intro left a
    cases hanswer : web (String.ofList a.text) with
    | status code => cases left <;> simp [fetchFrom, hanswer]
    | failure words => cases left <;> simp [fetchFrom, hanswer]
    | redirect code location => cases left <;> simp [fetchFrom, hanswer, h _ _ _ hanswer]
  unfold Reached fetchHead
  cases readWebAddress url.toList with
  | error why => simp
  | ok own => simp [hanswered redirectLimit own.requested]

/-- Without redirects there is one request for a page. -/
theorem asks_iff {timeout : Amount} {requests : List HeadRequest} :
    Asks web timeout url requests ↔
      ∃ own, readWebAddress url.toList = .ok own ∧ requests = [own.requested.request timeout] := by
  constructor
  · rintro ⟨own, followed, hown, hchain, -, rfl⟩
    cases followed with
    | nil => exact ⟨own, hown, rfl⟩
    | cons next followed =>
      obtain ⟨code, location, hanswer, hcode, -⟩ := (List.isChain_cons_cons.1 hchain).1
      rw [h _ _ _ hanswer] at hcode
      cases hcode
  · rintro ⟨own, hown, rfl⟩
    exact ⟨own, [], hown, .singleton _, Nat.zero_le _, rfl⟩

/-- Without redirects there is one request for each page of a list. -/
theorem flatten_asks {timeout : Amount} {ls : List Link} {chains : List (List HeadRequest)}
    (hasks : List.Forall₂ (fun l => Asks web timeout l.url) ls chains) : ∃ owns,
      List.Forall₂ (fun l own => readWebAddress l.url.toList = .ok own) ls owns ∧
        chains.flatten = owns.map (·.requested.request timeout) := by
  induction hasks with
  | nil => exact ⟨[], .nil, rfl⟩
  | cons ha _ ih =>
    obtain ⟨own, hown, rfl⟩ := h.asks_iff.1 ha
    obtain ⟨owns, howns, hflatten⟩ := ih
    refine ⟨own :: owns, .cons hown howns, ?_⟩
    rw [List.flatten_cons, hflatten]
    rfl

end Web.Direct

/-! ## Links -/

section

variable {r : LinkRules} {web : Web} {url : String} {around : Surroundings} {c : Context}
  {atHand : Option Web}

/-- The requests for a page are sent; what they come to is known if all of them can be sent. -/
theorem sends_requestPage (web : Web) (r : LinkRules) (url : String) :
    ∃ outcome, (requestPage web r url).Sends outcome (requestsFor web r.timeout url) ∧
      (Reached web url → ∃ m, outcome = .ok m) ∧
        (¬Reached web url → outcome = .error .badRequest) := by
  unfold requestPage requestsFor Reached
  rcases fetchHead web url with ⟨addresses, outcome⟩
  have hsent := Run.Sends.forM_request (fun address => ⟨address, r.timeout⟩) addresses
  rcases outcome with _ | words | status
  · refine ⟨_, (Run.sends_debug _ _).bind (hsent.andThen (Run.sends_throw _)), ?_, fun _ => rfl⟩
    intro h
    cases h
  · refine ⟨_, (Run.sends_debug _ _).bind (hsent.andThen (Run.sends_pure _)),
      fun _ => ⟨_, rfl⟩, fun h => absurd rfl h⟩
  · exact ⟨_, (Run.sends_debug _ _).bind (hsent.andThen (Run.sends_ite _ _)),
      fun _ => ⟨_, rfl⟩, fun h => absurd rfl h⟩

theorem networkFor_of_external (h : r.validateExternal = true) :
    networkFor atHand around r = some (atHand.getD around.web) := by
  unfold networkFor
  cases atHand <;> simp [h]

/-- Nothing is requested for a link to a page that is not due, or to something else. -/
theorem sends_linkMessage_of_not_due (h : ¬Due r url) :
    ∃ m, (linkMessage (networkFor atHand around r) around r c url).Sends (.ok m) [] := by
  rw [due_iff] at h
  unfold linkMessage
  split
  · exact ⟨_, Run.sends_pure _⟩
  · rename_i hpage
    unfold checkPage
    split
    · exact ⟨_, Run.sends_pure _⟩
    · rename_i hhost
      split
      · rename_i hexternal _
        exact absurd ⟨hexternal, hpage, hhost⟩ h
      · exact ⟨_, Run.sends_pure _⟩
  · exact ⟨_, Run.sends_pure _⟩
  · split <;> exact ⟨_, Run.sends_pure _⟩

/-- A page that is due is requested. -/
theorem linkMessage_of_due (h : Due r url) :
    linkMessage (networkFor atHand around r) around r c url =
      requestPage (atHand.getD around.web) r url := by
  obtain ⟨hexternal, hpage, hhost⟩ := due_iff.1 h
  unfold linkMessage checkPage
  rw [hpage, networkFor_of_external hexternal]
  dsimp only
  rw [hhost, hexternal]

/-- The violation of a link, if there is one: what looking at its address alone comes to. -/
def linkVerdict (network : Option Web) (around : Surroundings) (r : LinkRules) (c : Context)
    (l : Link) : Option Violation :=
  (linkMessage network around r c l.url).journal.1.toOption.join.map fun m =>
    reported "link" m (l.line, l.column)

theorem Run.Sends.checkLink {network : Option Web} {l : Link} {m : Option String}
    {requests : List HeadRequest}
    (h : (linkMessage network around r c l.url).Sends (.ok m) requests) :
    (checkLink network around r c l).Sends (.ok (linkVerdict network around r c l)) requests := by
  unfold linkVerdict
  rw [h.journal]
  exact h.map

variable {l : Link}

/-- Looking at a link: a page that is due is requested. -/
theorem sends_checkLink (h : Due r l.url → Reached (atHand.getD around.web) l.url) :
    (checkLink (networkFor atHand around r) around r c l).Sends
      (.ok (linkVerdict (networkFor atHand around r) around r c l))
      (if Due r l.url then requestsFor (atHand.getD around.web) r.timeout l.url else []) := by
  split
  · rename_i hdue
    obtain ⟨outcome, hsends, hok, -⟩ := sends_requestPage (atHand.getD around.web) r l.url
    obtain ⟨m, rfl⟩ := hok (h hdue)
    rw [← linkMessage_of_due (c := c) hdue] at hsends
    exact hsends.checkLink
  · rename_i hdue
    have hquiet : ∃ m, (linkMessage (networkFor atHand around r) around r c l.url).Sends
        (.ok m) [] := sends_linkMessage_of_not_due hdue
    obtain ⟨m, hsends⟩ := hquiet
    exact hsends.checkLink

/-- Looking at a link to a page that is due and cannot be reached ends in a fault. -/
theorem sends_checkLink_of_not_reached (hdue : Due r l.url)
    (h : ¬Reached (atHand.getD around.web) l.url) :
    (checkLink (networkFor atHand around r) around r c l).Sends (.error .badRequest)
      (requestsFor (atHand.getD around.web) r.timeout l.url) := by
  obtain ⟨outcome, hsends, -, herror⟩ := sends_requestPage (atHand.getD around.web) r l.url
  rw [herror h, ← linkMessage_of_due (c := c) hdue] at hsends
  exact hsends.bind_error

end

/-! ## The rule -/

/-- The links to pages that are to be requested. -/
def Context.dueLinks (c : Context) (r : LinkRules) : List Link :=
  c.document.links.filter (Due r ·.url)

/-- **What the rule on links does** on a network, with a verdict on each link. If all pages that are
due can be reached, each link has one violation or none, in the order of the links, and exactly the
pages that are due are requested, in the same order and once for each link; without redirects there
are no other requests. It ends at the first page that cannot be reached: those before it were
requested, and there is no result. -/
structure LinksChecked (c : Context) (r : LinkRules) (web : Web) (verdict : Link → Option Violation)
    (j : Journal) (run : Except Fault (List Violation) × Journal) : Prop where
  finishes : (∀ l ∈ c.dueLinks r, Reached web l.url) →
    run.1 = .ok (c.document.links.filterMap verdict) ∧
      ∃ chains, List.Forall₂ (fun l => Asks web r.timeout l.url) (c.dueLinks r) chains ∧
        run.2.requests = j.requests ++ chains.flatten
  direct : web.Direct →
    (∀ l ∈ c.dueLinks r, ∃ own, readWebAddress l.url.toList = .ok own) →
      ∃ owns,
        List.Forall₂ (fun l own => readWebAddress l.url.toList = .ok own) (c.dueLinks r) owns ∧
          run.2.requests = j.requests ++ owns.map (·.requested.request r.timeout)
  stops : ∀ before l after, c.dueLinks r = before ++ l :: after →
    (∀ l' ∈ before, Reached web l'.url) → ¬Reached web l.url → run.1 = .error .badRequest ∧
      ∃ chains last, List.Forall₂ (fun l => Asks web r.timeout l.url) before chains ∧
        (Asks web r.timeout l.url last ∨ last = []) ∧
          run.2.requests = j.requests ++ (chains.flatten ++ last)

section

variable {c : Context} {r : LinkRules} {around : Surroundings} {atHand : Option Web}

/-- The requests for the pages of links that are due, link by link. -/
theorem flatMap_filter_due {α : Type} (f : Link → List α) (ls : List Link) :
    (ls.flatMap fun l => if Due r l.url then f l else []) =
      (ls.filter (Due r ·.url)).flatMap f := by
  induction ls with
  | nil => rfl
  | cons l ls ih =>
    rw [List.filter_cons, List.flatMap_cons, ih]
    by_cases h : Due r l.url <;> simp [h]

theorem forall₂_asks {web : Web} {timeout : Amount} {ls : List Link}
    (h : ∀ l ∈ ls, Reached web l.url) : List.Forall₂ (fun l => Asks web timeout l.url) ls
      (ls.map fun l => requestsFor web timeout l.url) := by
  rw [List.forall₂_map_right_iff, List.forall₂_same]
  exact fun l hl => (h l hl).asks timeout

theorem linkRule_eq (hr : c.schema.links = some r) : linkRule around c atHand =
    (c.document.links.mapM (checkLink (networkFor atHand around r) around r c) >>= fun found =>
      pure (found.filterMap id)) := by
  unfold linkRule
  rw [hr]

theorem sends_linkRule_of_reached (hr : c.schema.links = some r)
    (h : ∀ l ∈ c.dueLinks r, Reached (atHand.getD around.web) l.url) :
    (linkRule around c atHand).Sends
      (.ok (c.document.links.filterMap (linkVerdict (networkFor atHand around r) around r c)))
      ((c.dueLinks r).flatMap fun l => requestsFor (atHand.getD around.web) r.timeout l.url) := by
  have hsends := Run.Sends.mapM (f := checkLink (networkFor atHand around r) around r c)
    fun l hl => sends_checkLink fun hdue => h l (List.mem_filter.2 ⟨hl, decide_eq_true hdue⟩)
  rw [flatMap_filter_due] at hsends
  have hrule := hsends.map (g := List.filterMap id)
  rwa [← linkRule_eq hr, List.filterMap_map, Function.id_comp] at hrule

theorem sends_linkRule_of_not_reached (hr : c.schema.links = some r) {before after : List Link}
    {l : Link} (hsplit : c.dueLinks r = before ++ l :: after)
    (hbefore : ∀ l' ∈ before, Reached (atHand.getD around.web) l'.url)
    (hl : ¬Reached (atHand.getD around.web) l.url) :
    (linkRule around c atHand).Sends (.error .badRequest)
      ((before.flatMap fun l => requestsFor (atHand.getD around.web) r.timeout l.url) ++
        requestsFor (atHand.getD around.web) r.timeout l.url) := by
  obtain ⟨front, rest, hlinks, rfl, hrest⟩ := List.filter_eq_append_iff.1 hsplit
  obtain ⟨skipped, after', rfl, hskipped, hdue, -⟩ := List.filter_eq_cons_iff.1 hrest
  -- the links between the last page before and this one are not due
  have hfront : (front ++ skipped).filter (Due r ·.url) = front.filter (Due r ·.url) := by
    rw [List.filter_append, List.filter_eq_nil_iff.2 hskipped, List.append_nil]
  have hsends := Run.Sends.mapM_error (f := checkLink (networkFor atHand around r) around r c)
    after' (fun l' hl' => sends_checkLink fun hdue' => hbefore l'
      (hfront ▸ List.mem_filter.2 ⟨hl', decide_eq_true hdue'⟩))
    (sends_checkLink_of_not_reached (of_decide_eq_true hdue) hl)
  rw [List.append_assoc, ← hlinks, flatMap_filter_due, hfront] at hsends
  rw [linkRule_eq hr]
  exact hsends.bind_error

/-- The rule ends in a fault if some page that is due cannot be reached. -/
theorem linkRule_eq_badRequest (hr : c.schema.links = some r)
    (h : ¬∀ l ∈ c.dueLinks r, Reached (atHand.getD around.web) l.url) (j : Journal) :
    ((linkRule around c atHand).result j).1 = .error .badRequest := by
  have hfirst : ∃ before l after, c.dueLinks r = before ++ l :: after ∧
      (∀ l' ∈ before, Reached (atHand.getD around.web) l'.url) ∧
        ¬Reached (atHand.getD around.web) l.url := by
    cases hfind : (c.dueLinks r).find? (¬Reached (atHand.getD around.web) ·.url) with
    | none => exact absurd (fun l hl => by simpa using List.find?_eq_none.1 hfind l hl) h
    | some l =>
      obtain ⟨hl, before, after, hsplit, hbefore⟩ := List.find?_eq_some_iff_append.1 hfind
      exact ⟨before, l, after, hsplit, by simpa using hbefore, by simpa using hl⟩
  obtain ⟨before, l, after, hsplit, hbefore, hl⟩ := hfirst
  exact (sends_linkRule_of_not_reached hr hsplit hbefore hl j).1

end

/-- **Exactly the pages that are due are requested**, whether there is a network at hand or the one
around the document is turned to. -/
theorem linkRule_requests {c : Context} {r : LinkRules} (hr : c.schema.links = some r)
    (around : Surroundings) (atHand : Option Web) (j : Journal) :
    LinksChecked c r (atHand.getD around.web)
      (linkVerdict (networkFor atHand around r) around r c) j
      ((linkRule around c atHand).result j) where
  finishes h := by
    obtain ⟨houtcome, hrequests⟩ := sends_linkRule_of_reached hr h j
    exact ⟨houtcome, _, forall₂_asks h, hrequests⟩
  direct hdirect hreadable := by
    have hreached : ∀ l ∈ c.dueLinks r, Reached (atHand.getD around.web) l.url :=
      fun l hl => hdirect.reached_iff.2 (hreadable l hl)
    obtain ⟨-, hrequests⟩ := sends_linkRule_of_reached hr hreached j
    obtain ⟨owns, howns, hflatten⟩ := hdirect.flatten_asks (forall₂_asks hreached)
    exact ⟨owns, howns, hrequests.trans (congrArg (j.requests ++ ·) hflatten)⟩
  stops before l after hsplit hbefore hl := by
    obtain ⟨houtcome, hrequests⟩ := sends_linkRule_of_not_reached hr hsplit hbefore hl j
    exact ⟨houtcome, _, _, forall₂_asks hbefore, asks_requestsFor _ _ _, hrequests⟩

/-! ### Pages with and without a port -/

/-- Requirements on links to pages, to be requested unless they are in a blocked domain. -/
def pageRules : LinkRules := { validateExternal := true, blockedDomains := ["b.com"] }

/-- A document with links to two pages, one of them in a blocked domain, and to an anchor. -/
def pagesDocument : Document where
  path := ""
  text := "[x](http://a.com/) [y](https://www.b.com/) [z](#z)\n"
  frontMatter := none
  preamble := ⟨1, 2, "[x](http://a.com/) [y](https://www.b.com/) [z](#z)",
    { links := [⟨"http://a.com/", "x", 1, 1⟩, ⟨"https://www.b.com/", "y", 1, 20⟩,
        ⟨"#z", "z", 1, 44⟩] }⟩
  sections := []

/-- The context of that document. -/
def pagesContext : Context where
  document := pagesDocument
  schema := { links := some pageRules }
  rootDirectory := ""
  binding := bindDocument (HeadingSpec.accepts "") pagesDocument []
  matcher := {}
  anchors := []

/-- A network where every page is there. -/
def wholeWeb : Web := fun _ => .status 200

/-- No files, and a network where every page is there. -/
def wholeSurroundings : Surroundings := ⟨fun _ => false, wholeWeb⟩

theorem linkRule_requests_pages :
    pagesContext.schema.links = some pageRules ∧
      (pagesContext.dueLinks pageRules).map (·.url) = ["http://a.com/"] ∧
        LinksChecked pagesContext pageRules wholeWeb
          (linkVerdict (some wholeWeb) wholeSurroundings pageRules pagesContext) {}
          ((linkRule wholeSurroundings pagesContext (some wholeWeb)).result {}) :=
  ⟨rfl, by decide +kernel, linkRule_requests rfl wholeSurroundings (some wholeWeb) {}⟩

/-- What the rule on links comes to for a text that is read and a schema that is loaded and bound to
it. -/
def linkRun? (text : String) (schema : Value) : Option (Except Fault (List Violation) × Journal) :=
  match loadSchema schema "", parseDocument text "" with
  | .ok schema, .ok d => match (openContext d schema "").journal.1 with
    | .ok c => some (linkRule wholeSurroundings c).journal
    | .error _ => none
  | _, _ => none

/-- A schema that has pages requested. -/
def externalSchema : Value :=
  .map [(.str "links", .map [(.str "validate_external", .bool true)])]

/-- **A page that is due and whose port is no number ends the rule**, and is not requested. -/
theorem linkRule_wordAsPort :
    Due { validateExternal := true } "http://example.com:abc/" ∧
      (linkRun? "[a](http://example.com:abc/)\n" externalSchema).map
        (fun run => (failure? run.1, run.2.requests.map (·.address))) =
          some (some .badRequest, []) := by
  decide +kernel

end Outline
