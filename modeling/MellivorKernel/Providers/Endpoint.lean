import MellivorKernel.Python.UrlSplit
import MellivorKernel.Foundation.Returns

/-!
# Endpoints

`_chat_completions_endpoint` and `_embeddings_endpoint` check `base_url` as
`urlsplit` reads it and extend it as it stands. They stay on the configured
resource where the two views agree (`endpoints_on_resource_iff`).
-/

namespace MellivorKernel

open Python Foundation

section
variable (checkNetloc : Str → Option Str)

/-- What the two functions have in common: one is named in the messages, the
other says what is added. -/
def endpoint (owner suffix : String) (baseUrl : Str) : Except Exn Str := do
  let parsed ← urlsplit checkNetloc baseUrl
  if parsed.scheme.map asciiLower ∉ [lit "http", lit "https"] ∨ parsed.host = [] then
    .error (.raised .providerConfigurationError
      (lit owner ++ lit " configuration.base_url must be an absolute HTTP(S) URL."))
  else if parsed.username ≠ none ∨ parsed.password ≠ none then
    .error (.raised .providerConfigurationError
      (lit owner ++ lit " configuration.base_url must not contain user information."))
  else if parsed.query ≠ [] ∨ parsed.fragment ≠ [] then
    .error (.raised .providerConfigurationError
      (lit owner ++ lit " configuration.base_url must not contain a query or fragment."))
  else .ok (rstrip (cp '/') baseUrl ++ lit suffix)

def chatCompletionsEndpoint : Str → Except Exn Str :=
  endpoint checkNetloc "LocalProvider" "/chat/completions"

def embeddingsEndpoint : Str → Except Exn Str := endpoint checkNetloc "Embedding" "/embeddings"

/-- The target reads as the base with the suffix behind its path, and nothing
else added. -/
def OnResource (suffix : String) (baseUrl target : Str) : Prop :=
  ∃ parsed parsed', urlsplit checkNetloc baseUrl = .ok parsed ∧
    urlsplit checkNetloc target = .ok parsed' ∧
    parsed'.scheme = parsed.scheme ∧ parsed'.netloc = parsed.netloc ∧
    parsed'.path = rstrip (cp '/') parsed.path ++ lit suffix ∧
    parsed'.username = none ∧ parsed'.password = none ∧ parsed'.query = [] ∧ parsed'.fragment = []

end

/-- No query or fragment is begun, and no slash is left at the end when
`urlsplit` drops tabs and line ends. -/
def BareUrl (baseUrl : Str) : Prop :=
  cp '?' ∉ baseUrl ∧ cp '#' ∉ baseUrl ∧
    ((rstrip (cp '/') baseUrl).filter (!unsafeUrlByte ·)).getLast? ≠ some (cp '/')

instance (baseUrl : Str) : Decidable (BareUrl baseUrl) := inferInstanceAs (Decidable (_ ∧ _ ∧ _))

variable {checkNetloc : Str → Option Str} {owner suffix : String} {baseUrl target : Str}

theorem endpoint_eq_ok (h : endpoint checkNetloc owner suffix baseUrl = .ok target) :
    target = rstrip (cp '/') baseUrl ++ lit suffix ∧
      ∃ parsed, urlsplit checkNetloc baseUrl = .ok parsed ∧ parsed.scheme ≠ [] ∧
        parsed.netloc ≠ [] ∧ parsed.username = none ∧ parsed.password = none := by
  obtain ⟨parsed, hparsed, h⟩ := bind_eq_ok.mp h
  split at h
  · cases h
  rename_i habsolute
  split at h
  · cases h
  rename_i huserinfo
  split at h
  · cases h
  cases h
  rw [not_or, not_not] at habsolute
  rw [not_or, not_not, not_not] at huserinfo
  refine ⟨rfl, parsed, hparsed, ?_, ?_, huserinfo⟩
  · intro hscheme
    rw [hscheme] at habsolute
    exact absurd habsolute.1 (by decide)
  · intro hnetloc
    refine habsolute.2 ?_
    rw [SplitResult.host, hnetloc]
    rfl

theorem mem_url_iff {url schemeText netloc rest : Str} (h : UrlParts url schemeText netloc rest)
    {c : CodePoint} (hc : c = cp '?' ∨ c = cp '#') : c ∈ url ↔ c ∈ rest := by
  have hcontrol : c0ControlOrSpace c = false ∧ unsafeUrlByte c = false ∧ schemeChar c = false ∧
      netlocEnd c = true ∧ c ∉ lit "://" := by
    rcases hc with rfl | rfl <;> decide
  obtain ⟨hcontrol, hsafe, hchar, hend, hmark⟩ := hcontrol
  have hscheme : c ∉ schemeText := by
    intro hmem
    have hall := List.all_eq_true.mp h.chars c hmem
    rw [hchar] at hall
    cases hall
  have hnetloc : c ∉ netloc := by
    intro hmem
    rw [h.netloc c hmem] at hend
    cases hend
  rw [← mem_cleaned hcontrol hsafe, h.eq]
  simp [hscheme, hmark, hnetloc]

theorem getLast?_url_iff {url schemeText netloc rest : Str} (h : UrlParts url schemeText netloc rest)
    (hne : netloc ≠ []) : (url.filter (!unsafeUrlByte ·)).getLast? = some (cp '/') ↔
      rest.getLast? = some (cp '/') := by
  rw [getLast?_cleaned h.cleaned_ne_nil, h.eq]
  rcases List.eq_nil_or_concat' rest with rfl | ⟨init, c, rfl⟩
  · obtain ⟨init, d, rfl⟩ := (List.eq_nil_or_concat' netloc).resolve_left hne
    have hd : d ≠ cp '/' := by
      rintro rfl
      exact absurd (h.netloc (cp '/') (by simp)) (by decide)
    simp [hd]
  · simp

theorem endpoint_on_resource_iff (h : endpoint checkNetloc owner suffix baseUrl = .ok target)
    (hhead : (lit suffix).head? = some (cp '/'))
    (hclean : (lit suffix).all (fun c => !unsafeUrlByte c && c ≠ cp '?' && c ≠ cp '#') = true) :
    OnResource checkNetloc suffix baseUrl target ↔ BareUrl baseUrl := by
  simp only [List.all_eq_true, Bool.and_eq_true, Bool.not_eq_true', decide_eq_true_eq,
    and_assoc] at hclean
  have hnone : ∀ c ∈ lit suffix, c ≠ cp '?' ∧ c ≠ cp '#' := fun c hc => (hclean c hc).2
  obtain ⟨rfl, parsed, hparsed, hscheme, hne, husername, hpassword⟩ := endpoint_eq_ok h
  obtain ⟨schemeText, rest, hparts, hchecked, hresult⟩ := exists_urlParts hparsed hscheme hne
  obtain ⟨rest', slashes, rfl, hslashes, hstripped⟩ := hparts.rstrip hne
  have hquery : cp '?' ∈ baseUrl ↔ cp '?' ∈ rest' := by
    rw [mem_url_iff hparts (.inl rfl), List.mem_append, or_iff_left]
    exact fun hmem => absurd (hslashes _ hmem) (by decide)
  have hfragment : cp '#' ∈ baseUrl ↔ cp '#' ∈ rest' := by
    rw [mem_url_iff hparts (.inr rfl), List.mem_append, or_iff_left]
    exact fun hmem => absurd (hslashes _ hmem) (by decide)
  have htarget : urlsplit checkNetloc (rstrip (cp '/') baseUrl ++ lit suffix) =
      .ok (splitPath (schemeText.map asciiLower) parsed.netloc (rest' ++ lit suffix)) := by
    rw [(hstripped.append ?_ ?_).urlsplit_eq, hchecked]
    · intro c hc
      obtain rfl : cp '/' = c := Option.some.inj (hhead.symm.trans hc)
      decide
    · exact List.all_eq_true.mpr fun c hc => by simp [(hclean c hc).1]
  have hsuffix : lit suffix ≠ [] := by
    intro hnil
    rw [hnil] at hhead
    cases hhead
  rw [BareUrl, hquery, hfragment, ne_eq, getLast?_url_iff hstripped hne]
  have hplain (extra : Str) (hextra : ∀ c ∈ extra, c ≠ cp '?' ∧ c ≠ cp '#') (hq : cp '?' ∉ rest')
      (hf : cp '#' ∉ rest') : splitPath (schemeText.map asciiLower) parsed.netloc (rest' ++ extra) =
        ⟨schemeText.map asciiLower, parsed.netloc, rest' ++ extra, [], []⟩ := by
    refine splitPath_plain _ _ ?_ ?_
    · rw [List.mem_append, not_or]
      exact ⟨hq, fun hmem => (hextra _ hmem).1 rfl⟩
    · rw [List.mem_append, not_or]
      exact ⟨hf, fun hmem => (hextra _ hmem).2 rfl⟩
  have hslash : ∀ c ∈ slashes, c ≠ cp '?' ∧ c ≠ cp '#' := by
    intro c hc
    rw [hslashes c hc]
    decide
  constructor
  · rintro ⟨first, second, hfirst, hsecond, -, -, hpath, -, -, hnoQuery, hnoFragment⟩
    cases hparsed.symm.trans hfirst
    cases htarget.symm.trans hsecond
    have hf : cp '#' ∉ rest' := by
      intro hmem
      simp [splitPath, after_append hmem, hsuffix] at hnoFragment
    have hq : cp '?' ∉ rest' := by
      intro hmem
      have hno : cp '#' ∉ rest' ++ lit suffix := by
        rw [List.mem_append, not_or]
        exact ⟨hf, fun hmem => (hnone _ hmem).2 rfl⟩
      simp [splitPath, before_eq_self hno, after_append hmem, hsuffix] at hnoQuery
    rw [hplain _ hslash hq hf] at hresult
    have hread : parsed.path = rest' ++ slashes := by rw [hresult]
    rw [hplain _ hnone hq hf, hread, rstrip_append _ hslashes] at hpath
    exact ⟨hq, hf, rstrip_eq_self.mp (List.append_cancel_right hpath).symm⟩
  · rintro ⟨hq, hf, hlast⟩
    rw [hplain _ hnone hq hf] at htarget
    rw [hplain _ hslash hq hf] at hresult
    refine ⟨parsed, _, hparsed, htarget, ?_, rfl, ?_, husername, hpassword, rfl, rfl⟩
    · rw [hresult]
    · rw [hresult, rstrip_append _ hslashes, rstrip_eq_self.mpr hlast]

/-- Both endpoints stay on the configured resource for the URLs without an
empty query or fragment and without a slash hidden at the end, and for no
others. -/
theorem endpoints_on_resource_iff (checkNetloc : Str → Option Str) (baseUrl target : Str) :
    (chatCompletionsEndpoint checkNetloc baseUrl = .ok target →
        (OnResource checkNetloc "/chat/completions" baseUrl target ↔ BareUrl baseUrl)) ∧
      (embeddingsEndpoint checkNetloc baseUrl = .ok target →
        (OnResource checkNetloc "/embeddings" baseUrl target ↔ BareUrl baseUrl)) :=
  ⟨fun h => endpoint_on_resource_iff h (by decide) (by decide),
    fun h => endpoint_on_resource_iff h (by decide) (by decide)⟩

/-- The query that is refused when it has text is begun here by the suffix. -/
theorem emptyQuery_leaves_resource :
    chatCompletionsEndpoint (fun _ => none) (lit "http://h/v1?") =
        .ok (lit "http://h/v1?/chat/completions") ∧
      ¬ OnResource (fun _ => none) "/chat/completions" (lit "http://h/v1?")
        (lit "http://h/v1?/chat/completions") := by
  refine ⟨rfl, ?_⟩
  rintro ⟨_, parsed, -, hparsed, -, -, -, -, -, hquery, -⟩
  cases hparsed
  exact absurd hquery (by decide)

theorem bareUrl_on_resource :
    OnResource (fun _ => none) "/chat/completions" (lit "http://h/v1//")
        (lit "http://h/v1/chat/completions") ∧
      OnResource (fun _ => none) "/embeddings" (lit "http://h/v1//") (lit "http://h/v1/embeddings") := by
  have hbare : BareUrl (lit "http://h/v1//") := by decide
  have hboth := endpoints_on_resource_iff (fun _ => none) (lit "http://h/v1//")
  exact ⟨((hboth (lit "http://h/v1/chat/completions")).1 rfl).mpr hbare,
    ((hboth (lit "http://h/v1/embeddings")).2 rfl).mpr hbare⟩

end MellivorKernel
