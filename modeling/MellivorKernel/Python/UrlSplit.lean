import MellivorKernel.Python.Exception
import MellivorKernel.Python.Number

/-!
# Splitting URLs

`urllib.parse.urlsplit` and the parts of a network location. What it refuses a
network location for, brackets or characters that expand under NFKC, depends
on nothing else and differs between releases: it is a parameter.
-/

namespace Python

/-- `s.partition(c)[0]`. -/
def before (c : CodePoint) (s : Str) : Str := s.takeWhile (· ≠ c)

/-- `s.partition(c)[2]`. -/
def after (c : CodePoint) (s : Str) : Str := (s.dropWhile (· ≠ c)).drop 1

def rstrip (c : CodePoint) (s : Str) : Str := s.rdropWhile (· = c)

def c0ControlOrSpace (c : CodePoint) : Bool := c.val ≤ 32

def unsafeUrlByte (c : CodePoint) : Bool := c = cp '\t' || c = cp '\r' || c = cp '\n'

def asciiLetter (c : CodePoint) : Bool :=
  (65 ≤ c.val && c.val ≤ 90) || (97 ≤ c.val && c.val ≤ 122)

def schemeChar (c : CodePoint) : Bool :=
  asciiLetter c || isDigit c || c = cp '+' || c = cp '-' || c = cp '.'

def asciiLower (c : CodePoint) : CodePoint := if 65 ≤ c.val && c.val ≤ 90 then c + 32 else c

/-- What ends a network location. -/
def netlocEnd (c : CodePoint) : Bool := c = cp '/' || c = cp '?' || c = cp '#'

structure SplitResult where
  scheme : Str
  netloc : Str
  path : Str
  query : Str
  fragment : Str
  deriving DecidableEq

/-- `username`: nothing where there is no `@`. -/
def SplitResult.username (parsed : SplitResult) : Option Str :=
  if cp '@' ∈ parsed.netloc then
    some (before (cp ':') (parsed.netloc.rdropWhile (· ≠ cp '@')).dropLast)
  else none

/-- `password`: nothing where there is no `:` before the `@`. -/
def SplitResult.password (parsed : SplitResult) : Option Str :=
  let userinfo := (parsed.netloc.rdropWhile (· ≠ cp '@')).dropLast
  if cp '@' ∈ parsed.netloc ∧ cp ':' ∈ userinfo then some (after (cp ':') userinfo) else none

/-- The host before `hostname` lowercases it; `hostname` is `None` where this
is empty. -/
def SplitResult.host (parsed : SplitResult) : Str :=
  let hostinfo := parsed.netloc.rtakeWhile (· ≠ cp '@')
  if cp '[' ∈ hostinfo then before (cp ']') (after (cp '[') hostinfo)
  else before (cp ':') hostinfo

def cleaned (url : Str) : Str := (url.dropWhile c0ControlOrSpace).filter (!unsafeUrlByte ·)

def splitScheme (url : Str) : Str × Str :=
  if cp ':' ∈ url ∧ (url.head?.any asciiLetter) ∧ (before (cp ':') url).all schemeChar then
    ((before (cp ':') url).map asciiLower, after (cp ':') url)
  else ([], url)

def splitPath (scheme netloc url : Str) : SplitResult where
  scheme := scheme
  netloc := netloc
  path := before (cp '?') (before (cp '#') url)
  query := after (cp '?') (before (cp '#') url)
  fragment := after (cp '#') url

def urlsplit (checkNetloc : Str → Option Str) (url : Str) : Except Exn SplitResult :=
  let (scheme, url) := splitScheme (cleaned url)
  if url.take 2 = lit "//" then
    let netloc := (url.drop 2).takeWhile (!netlocEnd ·)
    match checkNetloc netloc with
    | some message => .error (.raised .valueError message)
    | none => .ok (splitPath scheme netloc ((url.drop 2).dropWhile (!netlocEnd ·)))
  else .ok (splitPath scheme [] url)

-- ---------------------------------------------------------------------------
-- URLs with an authority
-- ---------------------------------------------------------------------------

structure UrlParts (url schemeText netloc rest : Str) : Prop where
  eq : cleaned url = schemeText ++ (lit "://" ++ (netloc ++ rest))
  letter : schemeText.head?.any asciiLetter = true
  chars : schemeText.all schemeChar = true
  netloc : ∀ c ∈ netloc, netlocEnd c = false
  rest : ∀ c ∈ rest.head?, netlocEnd c = true

theorem colon_not_schemeChar : schemeChar (cp ':') = false := by decide

theorem forall_ne {c : CodePoint} {s : Str} (h : c ∉ s) : ∀ a ∈ s, decide (a ≠ c) = true := by
  intro a ha
  refine decide_eq_true ?_
  rintro rfl
  exact h ha

theorem before_of_not_mem {c : CodePoint} {s t : Str} (h : c ∉ s) : before c (s ++ c :: t) = s :=
  takeWhile_stop (forall_ne h) (by simp)

theorem after_of_not_mem {c : CodePoint} {s t : Str} (h : c ∉ s) : after c (s ++ c :: t) = t := by
  rw [after, dropWhile_stop (forall_ne h) (by simp)]
  rfl

theorem before_eq_self {c : CodePoint} {s : Str} (h : c ∉ s) : before c s = s :=
  List.takeWhile_eq_self_iff.mpr (forall_ne h)

theorem after_eq_nil {c : CodePoint} {s : Str} (h : c ∉ s) : after c s = [] := by
  rw [after, List.dropWhile_eq_nil_iff.mpr (forall_ne h)]
  rfl

theorem before_append_after {c : CodePoint} {s : Str} (h : c ∈ s) :
    s = before c s ++ c :: after c s := by
  obtain ⟨first, last, rfl, hfirst⟩ := List.eq_append_cons_of_mem h
  rw [before_of_not_mem hfirst, after_of_not_mem hfirst]

theorem after_append {c : CodePoint} {s : Str} (h : c ∈ s) (t : Str) :
    after c (s ++ t) = after c s ++ t := by
  obtain ⟨first, last, rfl, hfirst⟩ := List.eq_append_cons_of_mem h
  rw [List.append_assoc, List.cons_append, after_of_not_mem hfirst, after_of_not_mem hfirst]

theorem rstrip_append {c : CodePoint} (s : Str) {t : Str} (h : ∀ a ∈ t, a = c) :
    rstrip c (s ++ t) = rstrip c s := by
  induction t using List.reverseRecOn with
  | nil => rw [List.append_nil]
  | append_singleton t a ih =>
    rw [← List.append_assoc, rstrip, List.rdropWhile_concat_pos _ _ _ (by simp [h a])]
    exact ih fun b hb => h b (by simp [hb])

theorem rstrip_eq_self {c : CodePoint} {s : Str} : rstrip c s = s ↔ s.getLast? ≠ some c := by
  rw [rstrip, List.rdropWhile_eq_self_iff]
  rcases List.eq_nil_or_concat' s with rfl | ⟨init, a, rfl⟩ <;> simp

theorem splitPath_plain {path : Str} (scheme netloc : Str) (hquery : cp '?' ∉ path)
    (hfragment : cp '#' ∉ path) : splitPath scheme netloc path = ⟨scheme, netloc, path, [], []⟩ := by
  rw [splitPath, before_eq_self hfragment, before_eq_self hquery, after_eq_nil hfragment,
    after_eq_nil hquery]

variable {checkNetloc : Str → Option Str} {url schemeText netloc rest : Str}

theorem UrlParts.urlsplit_eq (h : UrlParts url schemeText netloc rest) :
    urlsplit checkNetloc url = match checkNetloc netloc with
      | some message => .error (.raised .valueError message)
      | none => .ok (splitPath (schemeText.map asciiLower) netloc rest) := by
  have hcolon : cp ':' ∉ schemeText := by
    intro hmem
    have hchar := List.all_eq_true.mp h.chars _ hmem
    rw [colon_not_schemeChar] at hchar
    cases hchar
  have hcleaned : cleaned url = schemeText ++ cp ':' :: (lit "//" ++ (netloc ++ rest)) := h.eq
  have hscheme : splitScheme (cleaned url) =
      (schemeText.map asciiLower, lit "//" ++ (netloc ++ rest)) := by
    rw [splitScheme, hcleaned, before_of_not_mem hcolon, after_of_not_mem hcolon, if_pos]
    refine ⟨by simp, ?_, h.chars⟩
    have hletter := h.letter
    cases schemeText with
    | nil => cases hletter
    | cons => exact hletter
  have hrest : ∀ c ∈ rest.head?, (!netlocEnd c) = false := fun c hc => by simp [h.rest c hc]
  have hnetloc : ∀ c ∈ netloc, (!netlocEnd c) = true := fun c hc => by simp [h.netloc c hc]
  rw [urlsplit, hscheme]
  have hslashes : (lit "//" ++ (netloc ++ rest)).take 2 = lit "//" := rfl
  have hdrop : (lit "//" ++ (netloc ++ rest)).drop 2 = netloc ++ rest := rfl
  simp only [hslashes, hdrop, takeWhile_stop hnetloc hrest, dropWhile_stop hnetloc hrest, if_true]

theorem splitScheme_eq {text scheme left : Str} (h : splitScheme text = (scheme, left))
    (hscheme : scheme ≠ []) : ∃ schemeText, scheme = schemeText.map asciiLower ∧
      text = schemeText ++ cp ':' :: left ∧ schemeText.head?.any asciiLetter = true ∧
        schemeText.all schemeChar = true := by
  unfold splitScheme at h
  split at h
  · rename_i hcolon
    obtain ⟨hmem, hletter, hchars⟩ := hcolon
    cases h
    have htext := before_append_after hmem
    refine ⟨_, rfl, htext, ?_, hchars⟩
    rw [htext] at hletter
    generalize before (cp ':') text = schemeText at hletter
    cases schemeText with
    | nil => exact absurd hletter (by decide : asciiLetter (cp ':') ≠ true)
    | cons => exact hletter
  · cases h
    exact absurd rfl hscheme

theorem exists_urlParts {parsed : SplitResult} (h : urlsplit checkNetloc url = .ok parsed)
    (hscheme : parsed.scheme ≠ []) (hnetloc : parsed.netloc ≠ []) :
    ∃ schemeText rest, UrlParts url schemeText parsed.netloc rest ∧
      checkNetloc parsed.netloc = none ∧
      parsed = splitPath (schemeText.map asciiLower) parsed.netloc rest := by
  unfold urlsplit at h
  generalize hsplit : splitScheme (cleaned url) = split at h
  obtain ⟨scheme, left⟩ := split
  simp only at h
  split at h
  · rename_i hslashes
    split at h
    · cases h
    · rename_i hchecked
      cases h
      obtain ⟨schemeText, rfl, htext, hletter, hchars⟩ := splitScheme_eq hsplit hscheme
      refine ⟨schemeText, _, ⟨?_, hletter, hchars, ?_, ?_⟩, hchecked, rfl⟩
      · have hleft : left = lit "//" ++ left.drop 2 := by rw [← hslashes, List.take_append_drop]
        rw [htext, splitPath, List.takeWhile_append_dropWhile]
        exact congrArg (schemeText ++ cp ':' :: ·) hleft
      · intro c hc
        simpa using List.mem_takeWhile_imp hc
      · intro c hc
        have hhead := List.head?_dropWhile_not (!netlocEnd ·) (left.drop 2)
        rw [Option.mem_def.mp hc] at hhead
        simpa using hhead
  · cases h
    exact absurd rfl hnetloc

-- ---------------------------------------------------------------------------
-- More behind a URL
-- ---------------------------------------------------------------------------

theorem cleaned_eq_nil {s : Str} : cleaned s = [] ↔ s.dropWhile c0ControlOrSpace = [] := by
  constructor
  · intro h
    have hhead := List.head?_dropWhile_not c0ControlOrSpace s
    rw [cleaned] at h
    cases hdrop : s.dropWhile c0ControlOrSpace with
    | nil => rfl
    | cons c more =>
      -- what is removed is a control character too
      have hunsafe : unsafeUrlByte c = true := by
        rw [hdrop] at h
        simpa using List.filter_eq_nil_iff.mp h c (by simp)
      have hcontrol : ∀ c, unsafeUrlByte c = true → c0ControlOrSpace c = true := by
        simp only [unsafeUrlByte, Bool.or_eq_true, decide_eq_true_eq]
        rintro _ ((rfl | rfl) | rfl) <;> decide
      simp [hdrop, hcontrol c hunsafe] at hhead
  · intro h
    rw [cleaned, h]
    rfl

theorem mem_cleaned {s : Str} {c : CodePoint} (hc : c0ControlOrSpace c = false)
    (hsafe : unsafeUrlByte c = false) : c ∈ cleaned s ↔ c ∈ s := by
  rw [cleaned, List.mem_filter]
  simp only [hsafe, Bool.not_false, and_true]
  refine ⟨fun h => (List.dropWhile_sublist _).subset h, fun h => ?_⟩
  rw [← List.takeWhile_append_dropWhile (p := c0ControlOrSpace) (l := s), List.mem_append] at h
  refine h.resolve_left fun hleft => ?_
  have hcontrol := List.mem_takeWhile_imp hleft
  rw [hc] at hcontrol
  cases hcontrol

theorem cleaned_append {s t : Str} (hs : cleaned s ≠ []) (ht : t.all (!unsafeUrlByte ·) = true) :
    cleaned (s ++ t) = cleaned s ++ t := by
  rw [ne_eq, cleaned_eq_nil] at hs
  rw [cleaned, List.dropWhile_append, if_neg (by simpa using hs), List.filter_append,
    List.filter_eq_self.mpr (List.all_eq_true.mp ht)]
  rfl

theorem getLast?_cleaned {s : Str} (hs : cleaned s ≠ []) :
    (s.filter (!unsafeUrlByte ·)).getLast? = (cleaned s).getLast? := by
  have hsplit : s.filter (!unsafeUrlByte ·) =
      (s.takeWhile c0ControlOrSpace).filter (!unsafeUrlByte ·) ++ cleaned s := by
    rw [cleaned, ← List.filter_append, List.takeWhile_append_dropWhile]
  rw [hsplit, List.getLast?_append_of_ne_nil _ hs]

theorem UrlParts.cleaned_ne_nil (h : UrlParts url schemeText netloc rest) : cleaned url ≠ [] := by
  rw [h.eq]
  simp

theorem UrlParts.append (h : UrlParts url schemeText netloc rest) {suffix : Str}
    (hhead : ∀ c ∈ suffix.head?, netlocEnd c = true) (hclean : suffix.all (!unsafeUrlByte ·) = true) :
    UrlParts (url ++ suffix) schemeText netloc (rest ++ suffix) where
  eq := by simp [cleaned_append h.cleaned_ne_nil hclean, h.eq]
  letter := h.letter
  chars := h.chars
  netloc := h.netloc
  rest := by
    cases rest with
    | nil => exact hhead
    | cons c more => exact h.rest

theorem UrlParts.rstrip (h : UrlParts url schemeText netloc rest) (hne : netloc ≠ []) :
    ∃ rest' slashes, rest = rest' ++ slashes ∧ (∀ c ∈ slashes, c = cp '/') ∧
      UrlParts (rstrip (cp '/') url) schemeText netloc rest' := by
  have hurl : Python.rstrip (cp '/') url ++ url.rtakeWhile (· = cp '/') = url :=
    List.rdropWhile_append_rtakeWhile
  have hslashes : ∀ c ∈ url.rtakeWhile (· = cp '/'), c = cp '/' := by
    intro c hc
    simpa using List.mem_rtakeWhile_imp hc
  generalize url.rtakeWhile (· = cp '/') = slashes at hurl hslashes
  have hclean : slashes.all (!unsafeUrlByte ·) = true :=
    List.all_eq_true.mpr fun c hc => by rw [hslashes c hc]; decide
  have hsome : cleaned (Python.rstrip (cp '/') url) ≠ [] := by
    intro hnil
    have hcolon : cp ':' ∈ cleaned url := by simp [h.eq, lit]
    rw [← hurl, cleaned, List.dropWhile_append, cleaned_eq_nil.mp hnil] at hcolon
    have hmem := (List.dropWhile_sublist _).subset (List.mem_of_mem_filter hcolon)
    exact absurd (hslashes _ hmem) (by decide)
  have heq := h.eq
  rw [← hurl, cleaned_append hsome hclean, ← List.append_assoc, ← List.append_assoc] at heq
  rcases List.append_eq_append_iff.mp heq with ⟨more, hmore, rfl⟩ | ⟨rest', hrest', rfl⟩
  · obtain rfl : more = [] := by
      rcases List.eq_nil_or_concat' more with rfl | ⟨init, c, rfl⟩
      · rfl
      · obtain ⟨init', d, rfl⟩ := (List.eq_nil_or_concat' netloc).resolve_left hne
        rw [← List.append_assoc, ← List.append_assoc] at hmore
        obtain rfl : d = c := List.singleton_inj.mp (List.append_inj_right' hmore rfl)
        have hd := h.netloc d (by simp)
        rw [hslashes d (by simp)] at hd
        exact absurd hd (by decide)
    exact ⟨[], rest, rfl, hslashes, ⟨by simpa using hmore.symm, h.letter, h.chars, h.netloc, by simp⟩⟩
  · refine ⟨rest', slashes, rfl, hslashes, ⟨?_, h.letter, h.chars, h.netloc, ?_⟩⟩
    · simpa using hrest'
    · cases rest' with
      | nil => simp
      | cons => exact h.rest

end Python
