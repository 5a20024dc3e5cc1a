/-
Cross-origin grants (`cors_allow_origin` of `proxy/match_.rs` and the CORS branch of `apply_response_mutation`).
-/
import SunbeamProxy.Proxy.ClientIp

namespace SunbeamProxy

open Text Codec List

/-! ## Entries with a wildcard -/

/-- the entry is cut at its first `*.` -/
structure CutAtWildcard (entry before after : String) : Prop where
  eq : entry = before ++ "*." ++ after
  first : ¬['*', '.'] <:+: before.toList ++ ['*']

/-- the texts `x` for which the entry, with `x.` in the place of its wildcard, is the origin -/
def WildcardTakes (entry origin : String) : Prop :=
  ∃ before after rest, CutAtWildcard entry before after ∧ rest ≠ "" ∧ origin = before ++ rest ++ "." ++ after

def WildcardTakesAnyCase (entry origin : String) : Prop :=
  ∃ written, WildcardTakes entry written ∧ eqIgnoreAsciiCase written origin = true

namespace corsAllowOrigin

theorem go_eq_some {acc chars : List Char} {before after : String} :
    go acc chars = some (before, after) ↔ ∃ front, before.toList = acc.reverse ++ front
      ∧ chars = front ++ '*' :: '.' :: after.toList ∧ ¬['*', '.'] <:+: front ++ ['*'] := by
  induction chars generalizing acc with
  | nil => simp [go]
  | cons c chars ih =>
    by_cases hhere : c = '*' ∧ chars.head? = some '.'
    · obtain ⟨rfl, hdot⟩ := hhere
      obtain ⟨rest, rfl⟩ := head?_eq_some_iff.1 hdot
      simp only [go, Option.some.injEq, Prod.mk.injEq]
      apply Iff.intro
      · rintro ⟨rfl, rfl⟩
        exact ⟨[], by simp, by simp, by simp [infix_cons_iff]⟩
      · rintro ⟨front, hbefore, hchars, hfirst⟩
        cases front with
        | nil =>
          refine ⟨String.toList_inj.1 (by simpa using hbefore.symm), String.toList_inj.1 ?_⟩
          simpa using hchars
        | cons d front =>
          exfalso
          apply hfirst
          obtain ⟨rfl, htail⟩ := cons.inj hchars
          cases front with
          | nil => simp at htail
          | cons e front =>
            obtain ⟨rfl, -⟩ := cons.inj htail
            exact ⟨[], front ++ ['*'], by simp⟩
    · have hgo : go acc (c :: chars) = go (c :: acc) chars := by
        rw [go]
        rintro rest rfl rfl
        exact hhere ⟨rfl, rfl⟩
      rw [hgo, ih]
      apply Iff.intro
      · rintro ⟨front, hbefore, rfl, hfirst⟩
        refine ⟨c :: front, by simpa using hbefore, rfl, ?_⟩
        rw [cons_append, infix_cons_iff]
        rintro (hstart | hlater)
        · obtain ⟨rfl, hdot⟩ := cons_prefix_cons.1 hstart
          cases front with
          | nil => simp at hdot
          | cons d front =>
            obtain ⟨rfl, -⟩ := cons_prefix_cons.1 hdot
            exact hhere ⟨rfl, rfl⟩
        · exact hfirst hlater
      · rintro ⟨front, hbefore, hchars, hfirst⟩
        cases front with
        | nil =>
          obtain ⟨rfl, rfl⟩ := cons.inj hchars
          exact absurd ⟨rfl, rfl⟩ hhere
        | cons d front =>
          obtain ⟨rfl, rfl⟩ := cons.inj hchars
          exact ⟨front, by simpa using hbefore, rfl, fun h => hfirst (h.trans (suffix_cons _ _).isInfix)⟩

theorem originPattern_eq_some {entry before after : String} :
    originPattern entry = some (before, after) ↔ CutAtWildcard entry before after := by
  rw [originPattern, go_eq_some]
  apply Iff.intro
  · rintro ⟨front, hbefore, hchars, hfirst⟩
    subst hbefore
    exact ⟨String.toList_inj.1 (by simpa using hchars), hfirst⟩
  · rintro ⟨rfl, hfirst⟩
    exact ⟨before.toList, by simp, by simp, hfirst⟩

end corsAllowOrigin

variable {origin before : String}

theorem strip_around_eq_some {after rest : String} :
    ((stripStart origin before).bind (stripEnd · after)).bind (stripEnd · ".") = some rest
      ↔ origin = before ++ rest ++ "." ++ after := by
  simp only [Option.bind_eq_some_iff, stripStart_eq_some, stripEnd_eq_some]
  apply Iff.intro
  · rintro ⟨dotted, ⟨inner, rfl, rfl⟩, rfl⟩
    simp [String.append_assoc]
  · rintro rfl
    exact ⟨rest ++ ".", ⟨rest ++ "." ++ after, by simp only [String.append_assoc], rfl⟩, rfl⟩

theorem corsAllowOrigin_iff {allowOrigins : List String} (hne : allowOrigins ≠ []) (credentials : Bool) :
    corsAllowOrigin origin allowOrigins credentials = true
      ↔ ∃ entry ∈ allowOrigins, entry = "*" ∨ eqIgnoreAsciiCase entry origin = true ∨ WildcardTakes entry origin := by
  have hempty : allowOrigins.isEmpty = false := by simpa using hne
  simp only [corsAllowOrigin, hempty, Bool.false_eq_true, if_false, any_eq_true, Bool.or_eq_true, beq_iff_eq, or_assoc]
  refine exists_congr fun entry => and_congr_right fun _ => or_congr_right (or_congr_right ?_)
  cases hpattern : corsAllowOrigin.originPattern entry with
  | none =>
    apply iff_of_false (by simp)
    rintro ⟨before, after, rest, hcut, -⟩
    rw [corsAllowOrigin.originPattern_eq_some.2 hcut] at hpattern
    cases hpattern
  | some cut =>
    obtain ⟨before, after⟩ := cut
    have hcut := corsAllowOrigin.originPattern_eq_some.1 hpattern
    apply Iff.intro
    · intro h
      cases hrest : ((stripStart origin before).bind (stripEnd · after)).bind (stripEnd · ".") with
      | none => simp [hrest] at h
      | some rest =>
        refine ⟨before, after, rest, hcut, by simpa [hrest] using h, ?_⟩
        exact strip_around_eq_some.1 hrest
    · rintro ⟨before', after', rest, hcut', hne, horigin⟩
      rw [corsAllowOrigin.originPattern_eq_some.2 hcut', Option.some.injEq] at hpattern
      obtain ⟨rfl, rfl⟩ := hpattern
      simpa [strip_around_eq_some.2 horigin] using hne

/-! ## Origins as they are sent -/

structure SerializedOrigin where
  scheme : String
  labels : List String
  port : Option ℕ
  labels_ne : labels ≠ []
  label : ∀ l ∈ labels, l ≠ "" ∧ '.' ∉ l.toList

namespace SerializedOrigin

variable (o : SerializedOrigin)

def portText : String := (o.port.map fun p => ":" ++ p.repr).getD ""

def text : String := o.scheme ++ "://" ++ joinChar '.' o.labels ++ o.portText

theorem portText_no_dot : '.' ∉ o.portText.toList := by
  unfold portText
  cases o.port with
  | none => simp
  | some p =>
    rw [Option.map_some, Option.getD_some, String.toList_append, mem_append, not_or]
    refine ⟨by decide, fun hdot => ?_⟩
    exact absurd (isDigit_of_mem_repr hdot) (by decide)

theorem text_ne_star : o.text ≠ "*" := by
  intro h
  have hlength := congrArg (fun t => t.toList.length) h
  simp only [text, String.toList_append, length_append] at hlength
  have hsep : "://".toList.length = 3 := rfl
  have hstar : "*".toList.length = 1 := rfl
  omega

theorem split_with_port (labels : List String) (hne : labels ≠ [])
    (hlabels : ∀ l ∈ labels, '.' ∉ l.toList) :
    ∃ init last, labels = init ++ [last] ∧ splitChar '.' (joinChar '.' labels ++ o.portText) = init ++ [last ++ o.portText] := by
  obtain ⟨init, last, y, back, hjoin, hport, hboth⟩ := splitChar_append '.' (joinChar '.' labels) o.portText
  rw [splitChar_joinChar hne hlabels] at hjoin
  rw [splitChar_of_notMem o.portText_no_dot] at hport
  obtain ⟨rfl, rfl⟩ := cons.inj hport
  exact ⟨init, last, hjoin, hboth⟩

theorem joinChar_append_labels {front back : List String} (hfront : front ≠ []) (hback : back ≠ [])
    (h : ∀ l ∈ front ++ back, '.' ∉ l.toList) :
    joinChar '.' (front ++ back) = joinChar '.' front ++ ("." ++ joinChar '.' back) := by
  apply splitChar_inj (c := '.')
  calc splitChar '.' (joinChar '.' (front ++ back)) = front ++ back := splitChar_joinChar (by simp [hfront]) h
    _ = splitChar '.' (joinChar '.' front) ++ splitChar '.' (joinChar '.' back) := by
        rw [splitChar_joinChar hfront fun l hl => h l (mem_append_left _ hl),
          splitChar_joinChar hback fun l hl => h l (mem_append_right _ hl)]
    _ = splitChar '.' (joinChar '.' front ++ ("." ++ joinChar '.' back)) := (splitChar_append_sep '.' _ _).symm

theorem host_cut_iff {rest suffix : String} :
    joinChar '.' o.labels ++ o.portText = rest ++ "." ++ suffix ↔ ∃ front back, front ≠ [] ∧ back ≠ []
      ∧ o.labels = front ++ back ∧ rest = joinChar '.' front ∧ suffix = joinChar '.' back ++ o.portText := by
  have hdots := fun l hl => (o.label l hl).2
  apply Iff.intro
  · intro h
    obtain ⟨init, last, hlabels, hsplit⟩ := o.split_with_port o.labels o.labels_ne hdots
    rw [h, String.append_assoc, splitChar_append_sep] at hsplit
    -- the last piece belongs to the suffix, which has one
    obtain ⟨inner, t, ht⟩ := (eq_nil_or_concat' _).resolve_left (splitChar_ne_nil '.' suffix)
    rw [ht, ← append_assoc] at hsplit
    obtain ⟨hinit, hlast⟩ := append_inj' hsplit rfl
    obtain rfl := singleton_inj.1 hlast
    have hback := fun l hl => hdots l (by
      rw [hlabels, ← hinit, append_assoc]
      exact mem_append_right _ hl)
    refine ⟨splitChar '.' rest, inner ++ [last], splitChar_ne_nil _ _, by simp, ?_, (joinChar_splitChar _ _).symm, ?_⟩
    · rw [hlabels, ← hinit, append_assoc]
    · obtain ⟨init', last', heq, hsplit'⟩ := o.split_with_port (inner ++ [last]) (by simp) hback
      obtain ⟨rfl, hsame⟩ := append_inj' heq rfl
      obtain rfl := singleton_inj.1 hsame
      exact splitChar_inj (ht.trans hsplit'.symm)
  · rintro ⟨front, back, hfront, hback, hlabels, rfl, rfl⟩
    rw [hlabels] at hdots ⊢
    rw [joinChar_append_labels hfront hback hdots]
    simp [String.append_assoc]

end SerializedOrigin

theorem CutAtWildcard.unique {entry after before' after' : String} (h : CutAtWildcard entry before after)
    (h' : CutAtWildcard entry before' after') : before = before' ∧ after = after' := by
  have hsame := (corsAllowOrigin.originPattern_eq_some.2 h).symm.trans (corsAllowOrigin.originPattern_eq_some.2 h')
  simpa using hsame

theorem cutAtWildcard_of_notMem (h : '*' ∉ before.toList) (after : String) :
    CutAtWildcard (before ++ "*." ++ after) before after := by
  refine ⟨rfl, ?_⟩
  rintro ⟨a, b, hab⟩
  rcases eq_nil_or_concat' b with rfl | ⟨b', x, rfl⟩
  · have hlast := congrArg List.getLast? hab
    simp at hlast
  · rw [← append_assoc] at hab
    have hinit := (append_inj' hab rfl).1
    exact h (by rw [← hinit]; simp)

theorem wildcardTakes_labels (o : SerializedOrigin) (hscheme : '*' ∉ o.scheme.toList) (suffix : String) :
    WildcardTakes (o.scheme ++ "://*." ++ suffix) o.text ↔ ∃ front back, front ≠ [] ∧ back ≠ []
      ∧ o.labels = front ++ back ∧ suffix = joinChar '.' back ++ o.portText := by
  have hentry : o.scheme ++ "://*." ++ suffix = o.scheme ++ "://" ++ "*." ++ suffix := by
    rw [show "://*." = "://" ++ "*." from rfl]
    simp [String.append_assoc]
  have hcut : CutAtWildcard (o.scheme ++ "://*." ++ suffix) (o.scheme ++ "://") suffix := by
    rw [hentry]
    apply cutAtWildcard_of_notMem
    rw [String.toList_append, mem_append, not_or]
    exact ⟨hscheme, by decide⟩
  have htext : ∀ rest, o.text = o.scheme ++ "://" ++ rest ++ "." ++ suffix
      ↔ joinChar '.' o.labels ++ o.portText = rest ++ "." ++ suffix := by
    intro rest
    have hright : o.scheme ++ "://" ++ rest ++ "." ++ suffix = o.scheme ++ "://" ++ (rest ++ "." ++ suffix) := by
      simp [String.append_assoc]
    rw [SerializedOrigin.text, String.append_assoc, hright]
    exact String.append_right_inj _
  apply Iff.intro
  · rintro ⟨before, after, rest, hcut', -, horigin⟩
    obtain ⟨rfl, rfl⟩ := hcut.unique hcut'
    obtain ⟨front, back, hfront, hback, hlabels, -, hsuffix⟩ := o.host_cut_iff.1 ((htext rest).1 horigin)
    exact ⟨front, back, hfront, hback, hlabels, hsuffix⟩
  · rintro ⟨front, back, hfront, hback, hlabels, hsuffix⟩
    refine ⟨_, _, joinChar '.' front, hcut, ?_, (htext _).2 (o.host_cut_iff.2 ⟨front, back, hfront, hback, hlabels, rfl, hsuffix⟩)⟩
    intro hempty
    have hmem : ∀ l ∈ front, l ∈ o.labels := fun l hl => hlabels ▸ mem_append_left _ hl
    have hsplit := splitChar_joinChar hfront fun l hl => (o.label l (hmem l hl)).2
    rw [hempty] at hsplit
    exact (o.label "" (hmem "" (hsplit ▸ mem_singleton_self _))).1 rfl

/-! ## The headers -/

/-- whatever the headers were, the origin is the one value of the header -/
def AddsAllowOrigin (req : RequestHeader) (config : CorsConfig) (origin : String) : Prop :=
  ∀ headers, HeaderMap.getAll (applyResponseMutation req headers (.cors config)) "Access-Control-Allow-Origin"
    = [⟨utf8 origin⟩]

theorem validHeaderValue_of_visible {text : String} (h : VisibleText text) : validHeaderValue ⟨utf8 text⟩ = true := by
  rw [validHeaderValue, all_eq_true]
  intro b hb
  obtain ⟨c, hc, hbc⟩ := mem_flatMap.1 hb
  have hvisible := h c hc
  have hascii : c.utf8Size = 1 := by
    rw [Char.utf8Size_eq_one_iff]
    change c.toNat ≤ 127
    omega
  rw [String.utf8EncodeChar_eq_singleton hascii, mem_singleton] at hbc
  have hbyte : b.toNat = c.toNat := by
    have hsmall : c.val.toNat < 256 := by
      change c.toNat < 256
      omega
    rw [hbc, UInt32.toNat_toUInt8, Nat.mod_eq_of_lt hsmall]
    rfl
  simp only [Bool.or_eq_true, Bool.and_eq_true, decide_eq_true_eq, bne_iff_ne, beq_iff_eq, ne_eq, UInt8.le_iff_toNat_le,
    ← UInt8.toNat_inj, hbyte]
  change 32 ≤ c.toNat ∧ ¬c.toNat = 127 ∨ c.toNat = 9
  omega

theorem getAll_foldl_other {added : List (String × String)} {name : String}
    (h : ∀ e ∈ added, eqIgnoreAsciiCase e.1 name = false) (headers : HeaderMap) :
    HeaderMap.getAll (added.foldl (fun headers e => (HeaderMap.insert headers e.1 e.2).getD headers) headers) name
      = HeaderMap.getAll headers name := by
  induction added generalizing headers with
  | nil => rfl
  | cons e added ih =>
    obtain ⟨he, hrest⟩ := forall_mem_cons.1 h
    rw [foldl_cons, ih hrest]
    cases hinsert : HeaderMap.insert headers e.1 e.2 with
    | none => rfl
    | some headers' => exact HeaderMap.getAll_insert_other he hinsert

/-- the headers that may come with the allowed origin -/
inductive CorsExtra (req : RequestHeader) (config : CorsConfig) : String × String → Prop
  | vary : CorsExtra req config ("Vary", "Origin")
  | credentials (h : config.allowCredentials = true) : CorsExtra req config ("Access-Control-Allow-Credentials", "true")
  | methods (h : config.allowMethods ≠ []) : CorsExtra req config ("Access-Control-Allow-Methods",
      corsAllowed config.allowMethods (HeaderMap.getStr req.headers "access-control-request-method") config.allowCredentials)
  | headers (h : config.allowHeaders ≠ []) : CorsExtra req config ("Access-Control-Allow-Headers",
      corsAllowed config.allowHeaders (HeaderMap.getStr req.headers "access-control-request-headers") config.allowCredentials)
  | expose (value : String) : CorsExtra req config ("Access-Control-Expose-Headers", value)
  | maxAge (value : String) : CorsExtra req config ("Access-Control-Max-Age", value)

variable {req : RequestHeader} {config : CorsConfig}

theorem corsHeaders_eq (horigin : HeaderMap.getStr req.headers "origin" = some origin)
    (hallowed : corsAllowOrigin origin config.allowOrigins config.allowCredentials = true) :
    ∃ added, corsHeaders req config = ("Access-Control-Allow-Origin", origin) :: added ∧ ∀ e ∈ added, CorsExtra req config e := by
  simp only [corsHeaders, horigin, hallowed, cons_append, nil_append, append_assoc]
  refine ⟨_, rfl, ?_⟩
  intro e he
  simp only [mem_cons, mem_append, Option.mem_toList, Option.map_eq_some_iff,
    List.mem_ite_nil_left, List.mem_ite_nil_right, List.not_mem_nil, or_false, List.isEmpty_iff] at he
  rcases he with rfl | ⟨h, rfl⟩ | ⟨h, rfl⟩ | ⟨h, rfl⟩ | ⟨-, rfl⟩ | ⟨age, -, rfl⟩
  · exact .vary
  · exact .credentials h
  · exact .methods h
  · exact .headers h
  · exact .expose _
  · exact .maxAge _

theorem CorsExtra.other_name {e : String × String} (h : CorsExtra req config e) :
    eqIgnoreAsciiCase e.1 "Access-Control-Allow-Origin" = false := by
  cases h <;> simp only <;> decide

theorem corsAllowed_eq_star {allow : List String} {asked : Option String} (hne : allow ≠ [])
    (h : corsAllowed allow asked true = "*") : "*" ∈ allow ∧ (asked = none ∨ asked = some "*") := by
  simp only [corsAllowed] at h
  split_ifs at h with hstar
  · refine ⟨by simpa using hstar, ?_⟩
    cases asked with
    | none => exact .inl rfl
    | some value => exact .inr (congrArg some h)
  · exfalso
    have hlist := congrArg String.toList h
    match allow with
    | [] => exact hne rfl
    | [first] =>
      have hfirst : first.toList = "*".toList := by simpa [List.intercalate] using hlist
      apply hstar
      rw [String.toList_inj.1 hfirst]
      rfl
    | first :: second :: rest =>
      have hlength := congrArg List.length hlist
      simp at hlength
      omega

/-- **The header is added** exactly when the list grants the origin, and otherwise nothing is. -/
theorem addsAllowOrigin_iff (horigin : HeaderMap.getStr req.headers "origin" = some origin) :
    AddsAllowOrigin req config origin ↔ corsAllowOrigin origin config.allowOrigins config.allowCredentials = true := by
  apply Iff.intro
  · intro h
    by_contra hnot
    have hnothing : corsHeaders req config = [] := by
      rw [corsHeaders, horigin]
      exact if_neg hnot
    have hempty := h []
    rw [applyResponseMutation, hnothing] at hempty
    cases hempty
  · intro hallowed headers
    obtain ⟨added, hheaders, hothers⟩ := corsHeaders_eq horigin hallowed
    have hvisible : VisibleText origin := by
      obtain ⟨value, -, hvalue⟩ := Option.bind_eq_some_iff.1 horigin
      exact HeaderValue.visible_of_toStr hvalue
    have hname : validHeaderName "Access-Control-Allow-Origin" = true := by decide
    have hinsert : ∃ headers', HeaderMap.insert headers "Access-Control-Allow-Origin" origin = some headers' := by
      rw [HeaderMap.insert, validHeaderValue_of_visible hvisible]
      exact ⟨_, rfl⟩
    obtain ⟨headers', hinsert⟩ := hinsert
    rw [applyResponseMutation, hheaders, foldl_cons, getAll_foldl_other fun e he => (hothers e he).other_name, hinsert]
    exact HeaderMap.getAll_insert_self hinsert

theorem star_with_credentials (o : SerializedOrigin) (horigin : HeaderMap.getStr req.headers "origin" = some o.text)
    (hcredentials : config.allowCredentials = true) {e : String × String} (he : e ∈ corsHeaders req config)
    (hname : startsWith e.1 "Access-Control-Allow-" = true) (hstar : e.2 = "*") :
    (e.1 = "Access-Control-Allow-Methods" ∧ "*" ∈ config.allowMethods
        ∧ HeaderMap.getStr req.headers "access-control-request-method" ∈ [none, some "*"])
      ∨ (e.1 = "Access-Control-Allow-Headers" ∧ "*" ∈ config.allowHeaders
        ∧ HeaderMap.getStr req.headers "access-control-request-headers" ∈ [none, some "*"]) := by
  by_cases hallowed : corsAllowOrigin o.text config.allowOrigins config.allowCredentials = true
  · obtain ⟨added, hheaders, hextra⟩ := corsHeaders_eq horigin hallowed
    rw [hheaders, mem_cons] at he
    rcases he with rfl | he
    · exact absurd hstar o.text_ne_star
    · cases hextra e he with
      | vary => exact absurd hname (by decide)
      | credentials => exact absurd hstar (by decide)
      | methods hne =>
        rw [hcredentials] at hstar
        obtain ⟨hmem, hasked⟩ := corsAllowed_eq_star hne hstar
        exact .inl ⟨rfl, hmem, by simpa using hasked⟩
      | headers hne =>
        rw [hcredentials] at hstar
        obtain ⟨hmem, hasked⟩ := corsAllowed_eq_star hne hstar
        exact .inr ⟨rfl, hmem, by simpa using hasked⟩
      | expose value | maxAge value => exact absurd hname (by simp only; decide)
  · rw [corsHeaders, horigin] at he
    simp only [hallowed] at he
    cases he

/-- **Cross-origin grants.** With a list of origins the header goes, up to ASCII case, to those that the list names or a wildcard
of it takes, and to no others; without one it is added unless credentials are allowed. -/
theorem cors_grants_configured (req : RequestHeader) (config : CorsConfig) (o : SerializedOrigin)
    (horigin : HeaderMap.getStr req.headers "origin" = some o.text) :
    (config.allowOrigins ≠ [] →
      ((∃ entry ∈ config.allowOrigins, entry = "*" ∨ eqIgnoreAsciiCase entry o.text = true ∨ WildcardTakes entry o.text) →
        AddsAllowOrigin req config o.text)
      ∧ (AddsAllowOrigin req config o.text → ∃ entry ∈ config.allowOrigins,
        entry = "*" ∨ eqIgnoreAsciiCase entry o.text = true ∨ WildcardTakesAnyCase entry o.text))
    ∧ ('*' ∉ o.scheme.toList → ∀ suffix, WildcardTakes (o.scheme ++ "://*." ++ suffix) o.text ↔
        ∃ front back, front ≠ [] ∧ back ≠ [] ∧ o.labels = front ++ back ∧ suffix = joinChar '.' back ++ o.portText)
    ∧ (config.allowOrigins = [] → (AddsAllowOrigin req config o.text ↔ config.allowCredentials = false))
    ∧ (config.allowCredentials = true → ∀ e ∈ corsHeaders req config, startsWith e.1 "Access-Control-Allow-" = true → e.2 = "*" →
        (e.1 = "Access-Control-Allow-Methods" ∧ "*" ∈ config.allowMethods
            ∧ HeaderMap.getStr req.headers "access-control-request-method" ∈ [none, some "*"])
          ∨ (e.1 = "Access-Control-Allow-Headers" ∧ "*" ∈ config.allowHeaders
            ∧ HeaderMap.getStr req.headers "access-control-request-headers" ∈ [none, some "*"])) := by
  refine ⟨fun hne => ⟨?_, ?_⟩, wildcardTakes_labels o, fun hempty => ?_, fun hcredentials e he hname hstar => ?_⟩
  · intro h
    exact (addsAllowOrigin_iff horigin).2 ((corsAllowOrigin_iff hne _).2 h)
  · intro h
    obtain ⟨entry, hentry, hgrants⟩ := (corsAllowOrigin_iff hne _).1 ((addsAllowOrigin_iff horigin).1 h)
    refine ⟨entry, hentry, hgrants.imp_right (Or.imp_right fun htakes => ?_)⟩
    exact ⟨o.text, htakes, eqIgnoreAsciiCase_refl _⟩
  · rw [addsAllowOrigin_iff horigin, corsAllowOrigin, hempty]
    simp
  · exact star_with_credentials o horigin hcredentials he hname hstar

def barConfig : CorsConfig := { allowOrigins := ["*.bar.com"] }

def wwwBar : SerializedOrigin := ⟨"https", ["www", "bar", "com"], none, by decide, by decide⟩

def fromWwwBar : RequestHeader :=
  { method := "GET", uri := ⟨"/", none, none⟩, headers := [("Origin", HeaderValue.ofString "https://www.bar.com")] }

theorem fromWwwBar_origin : HeaderMap.getStr fromWwwBar.headers "origin" = some wwwBar.text := by decide

theorem schemeless_entry_grants : AddsAllowOrigin fromWwwBar barConfig wwwBar.text ∧ ∀ entry ∈ barConfig.allowOrigins,
      entry ≠ "*" ∧ eqIgnoreAsciiCase entry wwwBar.text = false ∧ ∀ scheme suffix, entry ≠ scheme ++ "://*." ++ suffix := by
  refine ⟨(addsAllowOrigin_iff fromWwwBar_origin).2 (by decide), ?_⟩
  intro entry hentry
  obtain rfl : entry = "*.bar.com" := by simpa [barConfig] using hentry
  refine ⟨by decide, by decide, fun scheme suffix heq => ?_⟩
  have hcolon : ':' ∈ "*.bar.com".toList := by simp [heq]
  exact absurd hcolon (by decide)

theorem www_bar_granted : AddsAllowOrigin fromWwwBar { allowOrigins := ["https://shop.com", "https://*.bar.com"] } wwwBar.text := by
  have hgrants := cors_grants_configured fromWwwBar { allowOrigins := ["https://shop.com", "https://*.bar.com"] } wwwBar
    fromWwwBar_origin
  have hentry : "https://*.bar.com" = wwwBar.scheme ++ "://*." ++ "bar.com" := by decide
  refine (hgrants.1 (by simp)).1 ⟨"https://*.bar.com", by simp, .inr (.inr ?_)⟩
  rw [hentry]
  exact (hgrants.2.1 (by decide) "bar.com").2 ⟨["www"], ["bar", "com"], by simp, by simp, rfl, by decide⟩

end SunbeamProxy
