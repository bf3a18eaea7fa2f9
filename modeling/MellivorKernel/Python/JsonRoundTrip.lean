import MellivorKernel.Python.JsonStrings

/-!
# Decoding what was encoded

`json.loads` of what `json.dumps` writes is the value as JSON sees it
(`PyValue.reread`): tuples come back as lists, keys as texts, floats as their
text reads, and texts with their surrogates paired.
-/

namespace Python

open Foundation

-- ---------------------------------------------------------------------------
-- Space and atoms
-- ---------------------------------------------------------------------------

theorem skipSpace_of_head {s : Str} (h : ∀ c ∈ s.head?, isJsonSpace c = false) :
    skipSpace s = s := by
  cases s with
  | nil => rfl
  | cons c s => simp [skipSpace, h c rfl]

theorem skipSpace_space (s : Str) : skipSpace (cp ' ' :: s) = skipSpace s := rfl

theorem NumberText.text_head (t : NumberText) (rest : Str) :
    ∃ c tail, t.text ++ rest = c :: tail ∧
      (isDigit c = true ∨ c = cp '-' ∧ ∃ d tail', tail = d :: tail' ∧ isDigit d = true) := by
  obtain ⟨d, ds, hd⟩ := List.exists_cons_of_ne_nil (decimal_ne_nil t.whole)
  have hdigit := isDigit_decimal t.whole d (by simp [hd])
  cases hneg : t.negative with
  | true => exact ⟨_, _, by simp [NumberText.text, hneg, hd]; rfl, .inr ⟨rfl, _, _, rfl, hdigit⟩⟩
  | false => exact ⟨_, _, by simp [NumberText.text, hneg, hd]; rfl, .inl hdigit⟩

theorem afterWord_cons_ne {c d : CodePoint} (h : c ≠ d) (word s : Str) :
    afterWord (c :: word) (d :: s) = none := if_neg h

theorem scanAtom_number (t : NumberText) (rest : Str) :
    scanAtom (t.text ++ rest) = scanNumber (t.text ++ rest) := by
  obtain ⟨c, tail, htext, hc⟩ := t.text_head rest
  have hletter {e d : CodePoint} (hd : isDigit d = true) (he : isDigit e = false) : e ≠ d := by
    rintro rfl
    rw [he] at hd
    cases hd
  have hfirst (e : Char) (he : isDigit (cp e) = false) (hm : cp e ≠ cp '-') : cp e ≠ c := by
    rcases hc with hd | ⟨rfl, -⟩
    · exact hletter hd he
    · exact hm
  have hminus : afterWord (lit "-Infinity") (c :: tail) = none := by
    rcases hc with hd | ⟨rfl, d, tail', rfl, hd⟩
    · exact afterWord_cons_ne (hletter hd (by decide)) _ _
    · change (if cp '-' = cp '-' then afterWord (lit "Infinity") (d :: tail') else none) = none
      rw [if_pos rfl]
      exact afterWord_cons_ne (hletter hd (by decide)) _ _
  have hword (e : Char) (word : Str) (he : isDigit (cp e) = false) (hm : cp e ≠ cp '-') :
      afterWord (cp e :: word) (c :: tail) = none := afterWord_cons_ne (hfirst e he hm) _ _
  rw [htext, scanAtom]
  simp only [jsonConstants, List.findSome?_cons, List.findSome?_nil]
  rw [hminus, show afterWord (lit "null") (c :: tail) = none from hword 'n' _ (by decide) (by decide),
    show afterWord (lit "true") (c :: tail) = none from hword 't' _ (by decide) (by decide),
    show afterWord (lit "false") (c :: tail) = none from hword 'f' _ (by decide) (by decide),
    show afterWord (lit "NaN") (c :: tail) = none from hword 'N' _ (by decide) (by decide),
    show afterWord (lit "Infinity") (c :: tail) = none from hword 'I' _ (by decide) (by decide)]
  rfl

variable [Printing]

-- ---------------------------------------------------------------------------
-- What comes back
-- ---------------------------------------------------------------------------

def PyKey.jsonText : PyKey → Str
  | .none => lit "null"
  | .bool b => jsonBool b
  | .int n => decimalInt n
  | .float f => jsonFloat f
  | .str s => s
  | .object .. => []

def PyFloat.reread : PyFloat → PyFloat
  | .finite q => (Printing.floatText q).toFloat
  | f => f

/-- What comes back of an object that was written as its text. -/
def JsonOptions.rereadOther (options : JsonOptions) (text : Except Exn Str) : PyValue :=
  .str (options.rereadText (text.toOption.getD []))

mutual
/-- `json.loads(json.dumps(v))`, where it returns. -/
def PyValue.reread (options : JsonOptions) : PyValue → PyValue
  | .none => .none
  | .bool b => .bool b
  | .int n => .int n
  | .float f => .float f.reread
  | .str s => .str (options.rereadText s)
  | .list items | .tuple items => .list (rereadItems options items)
  | .dict items => .dict (ofPairs (rereadPairs options items))
  | .cycle => .cycle
  | .bytes bs => .str (options.rereadText (reprBytes bs))
  | .toolCall id name hi hn items =>
    options.rereadOther (PyValue.toolCall id name hi hn items).text
  | .toolSpec name description items =>
    options.rereadOther (PyValue.toolSpec name description items).text
  | .object _ _ text => options.rereadOther text
def rereadItems (options : JsonOptions) : List PyValue → List PyValue
  | [] => []
  | v :: rest => v.reread options :: rereadItems options rest
def rereadPairs (options : JsonOptions) : Mapping → List (Str × PyValue)
  | [] => []
  | (k, v) :: rest => (options.rereadText k.jsonText, v.reread options) :: rereadPairs options rest
end

-- ---------------------------------------------------------------------------
-- Scanning one value
-- ---------------------------------------------------------------------------

/-- `text` stands for `v`: a scanner takes it off the front of whatever it
stands before. -/
structure Stands (options : JsonOptions) (v : PyValue) (text : Str) : Prop where
  head : ∃ c tail, text = c :: tail ∧ isJsonSpace c = false ∧ c ≠ cp ']' ∧ c ≠ cp '\uFEFF'
  scan : ∀ depth rest, text.length ≤ depth → Stops rest →
    scanOnce depth (text ++ rest) = .ok (v.reread options, rest)

section
variable {options : JsonOptions} {v : PyValue} {text : Str}

theorem Stands.skipSpace_append (h : Stands options v text) (rest : Str) :
    skipSpace (text ++ rest) = text ++ rest := by
  obtain ⟨c, tail, rfl, hc, -⟩ := h.head
  refine skipSpace_of_head ?_
  rintro _ ⟨⟩
  exact hc

theorem stands_string (s : Str) (hv : v.reread options = .str (options.rereadText s)) :
    Stands options v (jsonString options.ensureAscii s) where
  head := ⟨_, _, rfl, by decide, by decide, by decide⟩
  scan := by
    rintro (_ | depth) rest hdepth -
    · simp [jsonString] at hdepth
    · simp only [jsonString, List.cons_append, List.append_assoc, List.nil_append, scanOnce,
        if_true, scanString_jsonString, hv]
      rfl

theorem stands_constant {word : String} {c : CodePoint} {tail : Str} (hword : lit word = c :: tail)
    (hc : isJsonSpace c = false ∧ c ≠ cp ']' ∧ c ≠ cp '\uFEFF' ∧ c ≠ cp '"' ∧ c ≠ cp '\x7b' ∧ c ≠ cp '[')
    (h : ∀ rest, scanAtom (lit word ++ rest) = .ok (v.reread options, rest)) :
    Stands options v (lit word) where
  head := ⟨c, tail, hword, hc.1, hc.2.1, hc.2.2.1⟩
  scan := by
    rintro (_ | depth) rest hdepth -
    · simp [hword] at hdepth
    · obtain ⟨-, -, -, h1, h2, h3⟩ := hc
      rw [← h rest, hword, List.cons_append, scanOnce, if_neg h1, if_neg h2, if_neg h3]

theorem stands_number {t : NumberText}
    (h : ∀ rest, Stops rest → scanNumber (t.text ++ rest) = .ok (v.reread options, rest)) :
    Stands options v t.text := by
  obtain ⟨c, tail, htext, hc⟩ := t.text_head []
  rw [List.append_nil] at htext
  have hne (e : Char) (he : isDigit (cp e) = false) (hm : cp '-' ≠ cp e) : c ≠ cp e := by
    rcases hc with hd | ⟨rfl, -⟩
    · rintro rfl
      rw [he] at hd
      cases hd
    · exact hm
  constructor
  · refine ⟨c, tail, htext, ?_, hne ']' (by decide) (by decide),
      hne '\uFEFF' (by decide) (by decide)⟩
    simp [isJsonSpace, hne ' ' (by decide) (by decide), hne '\t' (by decide) (by decide),
      hne '\n' (by decide) (by decide), hne '\r' (by decide) (by decide)]
  · rintro (_ | depth) rest hdepth hrest
    · simp [htext] at hdepth
    · rw [← h rest hrest, ← scanAtom_number, htext, List.cons_append, scanOnce,
        if_neg (hne '"' (by decide) (by decide)), if_neg (hne '\x7b' (by decide) (by decide)),
        if_neg (hne '[' (by decide) (by decide))]

theorem stands_int {n : Int} (h : convertible n = true) :
    Stands options (.int n) (decimalInt n) := by
  rw [← text_ofInt]
  refine stands_number fun rest hrest => ?_
  have hfloat : (NumberText.ofInt n).isFloat = false := rfl
  simp [scanNumber, readNumber_text _ hrest, hfloat, h, PyValue.reread]

theorem stands_float (f : PyFloat) : Stands options (.float f) (jsonFloat f) := by
  cases f with
  | nan => exact stands_constant rfl (by decide) fun rest => rfl
  | inf negative =>
    cases negative with
    | true => exact stands_constant rfl (by decide) fun rest => rfl
    | false => exact stands_constant rfl (by decide) fun rest => rfl
  | finite q =>
    refine stands_number fun rest hrest => ?_
    simp [scanNumber, readNumber_text _ hrest, (Printing.floatText q).isFloat, PyValue.reread,
      PyFloat.reread]

theorem stands_bool (b : Bool) : Stands options (.bool b) (jsonBool b) := by
  cases b with
  | true => exact stands_constant rfl (by decide) fun rest => rfl
  | false => exact stands_constant rfl (by decide) fun rest => rfl

theorem stands_none : Stands options .none (lit "null") :=
  stands_constant rfl (by decide) fun rest => rfl

end

-- ---------------------------------------------------------------------------
-- Scanning containers
-- ---------------------------------------------------------------------------

/-- `item` takes `text` off the front as `x`. -/
structure Takes (item : Str → Scan (α × Str)) (x : α) (text : Str) : Prop where
  space : ∀ rest, skipSpace (text ++ rest) = text ++ rest
  takes : ∀ rest, Stops rest → item (text ++ rest) = .ok (x, rest)

omit [Printing] in
theorem length_le_join {sep t : Str} {texts : List Str} (h : t ∈ texts) :
    t.length ≤ (join sep texts).length := by
  fun_induction join sep texts with
  | case1 => cases h
  | case2 s => rw [List.mem_singleton.mp h]
  | case3 s u rest ih =>
    simp only [List.length_append]
    rcases List.mem_cons.mp h with rfl | h
    · omega
    · exact (ih h).trans (by omega)

omit [Printing] in
theorem count_le_join {sep : Str} {texts : List Str} (h : ∀ t ∈ texts, t ≠ []) :
    texts.length ≤ (join sep texts).length := by
  fun_induction join sep texts with
  | case1 => exact Nat.zero_le _
  | case2 s => exact List.length_pos_iff.mpr (h s (by simp))
  | case3 s u rest ih =>
    have hs := List.length_pos_iff.mpr (h s (by simp))
    have hrest := ih fun t ht => h t (List.mem_cons_of_mem _ ht)
    simp only [List.length_append, List.length_cons] at hrest ⊢
    omega

omit [Printing] in
theorem stops_cons {c : CodePoint} (rest : Str)
    (h : isDigit c = false ∧ c ≠ cp '.' ∧ c ≠ cp 'e' ∧ c ≠ cp 'E') : Stops (c :: rest) := by
  rintro _ ⟨⟩
  exact h

omit [Printing] in
theorem scanItems_join {item : Str → Scan (α × Str)} {close : CodePoint}
    (hclose : close = cp ']' ∨ close = cp '\x7d') {xs : List α} {texts : List Str}
    (h : List.Forall₂ (Takes item) xs texts) (hne : xs ≠ []) {fuel : Nat}
    (hfuel : texts.length ≤ fuel) (rest : Str) :
    scanItems item close fuel (join (lit ", ") texts ++ close :: rest) = .ok (xs, rest) := by
  induction h generalizing fuel with
  | nil => exact absurd rfl hne
  | @cons x text xs texts hx hxs ih =>
    obtain _ | fuel := fuel
    · simp at hfuel
    cases hxs with
    | nil =>
      have hstop : Stops (close :: rest) := by
        rcases hclose with rfl | rfl <;> exact stops_cons rest (by decide)
      have hend : scanDelimiter close (close :: rest) = .ok (true, rest) := by
        rcases hclose with rfl | rfl <;> rfl
      rw [join, scanItems, hx.takes _ hstop]
      change (scanDelimiter close (close :: rest) >>= _) = _
      rw [hend]
      rfl
    | @cons y text' xs texts hy hys =>
      -- the separator is a comma and a space, and the next item starts after it
      obtain ⟨tail, htail⟩ : ∃ tail, join (lit ", ") (text' :: texts) ++ close :: rest =
          text' ++ tail := by
        cases texts with
        | nil => exact ⟨_, rfl⟩
        | cons u texts => exact ⟨_, by simp only [join, List.append_assoc]; rfl⟩
      have hnext : scanDelimiter close
          (cp ',' :: cp ' ' :: (join (lit ", ") (text' :: texts) ++ close :: rest)) =
          .ok (false, join (lit ", ") (text' :: texts) ++ close :: rest) := by
        have hskip := hy.space tail
        rw [← htail] at hskip
        rw [scanDelimiter, skipSpace_of_head (by rintro _ ⟨⟩; decide)]
        have hc : cp ',' ≠ close := by rcases hclose with rfl | rfl <;> decide
        simp only [hc, if_false, if_true, skipSpace_space, hskip]
      have hsplit : join (lit ", ") (text :: text' :: texts) ++ close :: rest =
          text ++ cp ',' :: cp ' ' :: (join (lit ", ") (text' :: texts) ++ close :: rest) := by
        rw [join, List.append_assoc, List.append_assoc]
        rfl
      rw [hsplit, scanItems, hx.takes _ (stops_cons _ (by decide))]
      change (scanDelimiter close _ >>= _) = _
      rw [hnext]
      change (scanItems item close fuel _ >>= _) = _
      rw [ih (by simp) (by simpa using hfuel)]
      rfl

/-- `item` takes `text` off the front as `x` at every depth the text may have. -/
structure TakesAt (item : Nat → Str → Scan (α × Str)) (x : α) (text : Str) : Prop where
  ne_nil : text ≠ []
  takes : ∀ depth, text.length ≤ depth → Takes (item depth) x text

omit [Printing] in
theorem scanItems_texts {item : Nat → Str → Scan (α × Str)} {close : CodePoint}
    (hclose : close = cp ']' ∨ close = cp '\x7d') {xs : List α} {texts : List Str}
    (h : List.Forall₂ (TakesAt item) xs texts) (hne : xs ≠ []) {depth : Nat}
    (hdepth : (join (lit ", ") texts).length ≤ depth) (rest : Str) :
    scanItems (item depth) close (join (lit ", ") texts ++ close :: rest).length
      (join (lit ", ") texts ++ close :: rest) = .ok (xs, rest) := by
  have hall : ∀ t ∈ texts, t ≠ [] ∧ t.length ≤ depth := by
    intro t ht
    refine ⟨?_, (length_le_join ht).trans hdepth⟩
    clear hdepth hne
    induction h with
    | nil => cases ht
    | cons hx _ ih =>
      rcases List.mem_cons.mp ht with rfl | ht
      · exact hx.ne_nil
      · exact ih ht
  have hcount : texts.length ≤ (join (lit ", ") texts).length :=
    count_le_join fun t ht => (hall t ht).1
  refine scanItems_join hclose ?_ hne (by rw [List.length_append]; omega) rest
  clear hdepth hne hcount
  induction h with
  | nil => exact .nil
  | cons hx _ ih =>
    exact .cons (hx.takes depth (hall _ (by simp)).2)
      (ih fun t ht => hall t (List.mem_cons_of_mem _ ht))

omit [Printing] in
theorem join_head (c : CodePoint) (tail : Str) (texts : List Str) :
    ∃ rest, join (lit ", ") ((c :: tail) :: texts) = c :: rest := by
  cases texts with
  | nil => exact ⟨_, rfl⟩
  | cons t texts => exact ⟨_, rfl⟩

omit [Printing] in
theorem scanArray_items {scan : Str → Scan (PyValue × Str)} {c : CodePoint} {s rest : Str}
    {vs : List PyValue} (hc : isJsonSpace c = false) (hne : c ≠ cp ']')
    (h : scanItems scan (cp ']') (c :: s).length (c :: s) = .ok (vs, rest)) :
    scanArray scan (c :: s) = .ok (.list vs, rest) := by
  rw [scanArray, skipSpace_of_head (by rintro _ ⟨⟩; exact hc)]
  change (if c = cp ']' then _ else scanItems scan _ _ (c :: s) >>= _) = _
  rw [if_neg hne, h]
  rfl

omit [Printing] in
theorem scanObject_members {scan : Str → Scan (PyValue × Str)} {c : CodePoint} {s rest : Str}
    {members : List (Str × PyValue)} (hc : isJsonSpace c = false) (hne : c ≠ cp '\x7d')
    (h : scanItems (scanMember scan) (cp '\x7d') (c :: s).length (c :: s) = .ok (members, rest)) :
    scanObject scan (c :: s) = .ok (.dict (ofPairs members), rest) := by
  rw [scanObject, skipSpace_of_head (by rintro _ ⟨⟩; exact hc)]
  change (if c = cp '\x7d' then _ else scanItems (scanMember scan) _ _ (c :: s) >>= _) = _
  rw [if_neg hne, h]
  rfl

section
variable {options : JsonOptions} {v : PyValue} {text : Str}

theorem Stands.takes (h : Stands options v text) : TakesAt scanOnce (v.reread options) text where
  ne_nil := by
    obtain ⟨c, tail, rfl, -⟩ := h.head
    exact List.cons_ne_nil _ _
  takes depth hd := ⟨h.skipSpace_append, fun rest => h.scan depth rest hd⟩

omit [Printing] in
theorem join_le_of_bracketed {opening closing : String} {texts : List Str} {depth : Nat}
    (ho : (lit opening).length = 1)
    (h : (lit opening ++ join (lit ", ") texts ++ lit closing).length ≤ depth + 1) :
    (join (lit ", ") texts).length ≤ depth := by
  simp only [List.length_append, ho] at h
  omega

theorem stands_list {items : List PyValue} {texts : List Str}
    (h : List.Forall₂ (Stands options) items texts)
    (hv : v.reread options = .list (rereadItems options items)) :
    Stands options v (lit "[" ++ join (lit ", ") texts ++ lit "]") where
  head := ⟨cp '[', _, rfl, by decide, by decide, by decide⟩
  scan := by
    rintro (_ | depth) rest hdepth -
    · simp [lit] at hdepth
    have hitems : List.Forall₂ (TakesAt scanOnce) (rereadItems options items) texts := by
      clear hdepth hv
      induction h with
      | nil => exact .nil
      | cons hx _ ih => exact .cons hx.takes ih
    have hjoin := join_le_of_bracketed rfl hdepth
    change scanArray (scanOnce depth) ((join (lit ", ") texts ++ lit "]") ++ rest) = _
    rw [List.append_assoc, hv]
    cases h with
    | nil => rfl
    | @cons w t items texts hw _ =>
      have hscan := scanItems_texts (.inl rfl) hitems (by simp [rereadItems]) hjoin rest
      obtain ⟨c, tail, rfl, hc, hne, -⟩ := hw.head
      obtain ⟨more, hmore⟩ := join_head c tail texts
      rw [hmore] at hscan ⊢
      exact scanArray_items hc hne hscan

-- ---------------------------------------------------------------------------
-- Objects
-- ---------------------------------------------------------------------------

theorem scanMember_takes {k : Str} (h : Stands options v text) :
    TakesAt (fun depth => scanMember (scanOnce depth))
      (options.rereadText k, v.reread options)
      (jsonString options.ensureAscii k ++ lit ": " ++ text) where
  ne_nil := by simp [jsonString]
  takes depth hd := by
    constructor
    · exact fun rest => skipSpace_of_head (by rintro _ ⟨⟩; decide)
    · rintro rest hrest
      have hlen : text.length ≤ depth := by
        simp only [List.length_append] at hd
        omega
      have hkey : scanKey (jsonString options.ensureAscii k ++ lit ": " ++ text ++ rest) =
          .ok (options.rereadText k, text ++ rest) := by
        simp only [jsonString, List.append_assoc, List.cons_append, List.nil_append, scanKey,
          if_true, scanString_jsonString]
        have hcolon : skipSpace (lit ": " ++ (text ++ rest)) = cp ':' :: cp ' ' :: (text ++ rest) :=
          skipSpace_of_head (by rintro _ ⟨⟩; decide)
        simp only [Bind.bind, Except.bind, hcolon, if_true, skipSpace_space, h.skipSpace_append]
      rw [scanMember, hkey]
      change (scanOnce depth (text ++ rest) >>= _) = _
      rw [h.scan depth rest hlen hrest]
      rfl

theorem stands_dict {items : Mapping} {texts : List Str}
    (h : List.Forall₂ (fun p t => ∃ text, t = jsonString options.ensureAscii p.1.jsonText ++
      lit ": " ++ text ∧ Stands options p.2 text) items texts) :
    Stands options (.dict items) (lit "\x7b" ++ join (lit ", ") texts ++ lit "\x7d") where
  head := ⟨cp '\x7b', _, rfl, by decide, by decide, by decide⟩
  scan := by
    rintro (_ | depth) rest hdepth -
    · simp [lit] at hdepth
    have hitems : List.Forall₂ (TakesAt fun depth => scanMember (scanOnce depth))
        (rereadPairs options items) texts := by
      clear hdepth
      induction h with
      | nil => exact .nil
      | cons hx _ ih =>
        obtain ⟨text, rfl, hs⟩ := hx
        exact .cons (scanMember_takes hs) ih
    have hjoin := join_le_of_bracketed rfl hdepth
    change scanObject (scanOnce depth) ((join (lit ", ") texts ++ lit "\x7d") ++ rest) = _
    rw [List.append_assoc, PyValue.reread]
    cases h with
    | nil => rfl
    | @cons p t items texts hp _ =>
      have hscan := scanItems_texts (.inr rfl) hitems (by simp [rereadPairs]) hjoin rest
      obtain ⟨text, rfl, -⟩ := hp
      obtain ⟨more, hmore⟩ := join_head (cp '"') (p.1.jsonText.flatMap
        (jsonEscape options.ensureAscii) ++ [cp '"'] ++ lit ": " ++ text) texts
      rw [show jsonString options.ensureAscii p.1.jsonText ++ lit ": " ++ text = cp '"' ::
        (p.1.jsonText.flatMap (jsonEscape options.ensureAscii) ++ [cp '"'] ++ lit ": " ++ text)
        from rfl, hmore] at hscan ⊢
      exact scanObject_members (by decide) (by decide) hscan

theorem PyKey.dumps_eq {k : PyKey} {text : Str} (h : k.dumps options = .ok text) :
    text = jsonString options.ensureAscii k.jsonText := by
  cases k with
  | int n =>
    obtain ⟨t, ht, h⟩ := bind_eq_ok.mp h
    unfold intText at ht
    split at ht
    · cases ht
      exact (Except.ok.inj h).symm
    · cases ht
  | object ident typeName => cases h
  | _ => exact (Except.ok.inj h).symm

omit [Printing] in
theorem dumpsOther_eq {typeName text : Str} {t : Except Exn Str}
    (h : dumpsOther options typeName t = .ok text) :
    text = jsonString options.ensureAscii (t.toOption.getD []) := by
  unfold dumpsOther at h
  split at h
  · obtain ⟨s, rfl, h⟩ := bind_eq_ok.mp h
    exact (Except.ok.inj h).symm
  · cases h

-- ---------------------------------------------------------------------------
-- The round trip
-- ---------------------------------------------------------------------------

mutual
theorem PyValue.stands_dumps : (v : PyValue) → {text : Str} → v.dumps options = .ok text →
    Stands options v text
  | .none, _, h => Except.ok.inj h ▸ stands_none
  | .bool b, _, h => Except.ok.inj h ▸ stands_bool b
  | .int n, _, h => by
    rw [PyValue.dumps, intText] at h
    split at h
    · rename_i hn
      exact Except.ok.inj h ▸ stands_int hn
    · cases h
  | .float f, _, h => Except.ok.inj h ▸ stands_float f
  | .str s, _, h => Except.ok.inj h ▸ stands_string s rfl
  | .list items, _, h | .tuple items, _, h => by
    obtain ⟨parts, hparts, h⟩ := bind_eq_ok.mp h
    exact Except.ok.inj h ▸ stands_list (stands_dumpsItems items hparts) rfl
  | .dict items, _, h => by
    obtain ⟨parts, hparts, h⟩ := bind_eq_ok.mp h
    exact Except.ok.inj h ▸ stands_dict (stands_dumpsPairs items hparts)
  | .cycle, _, h => by cases h
  | .bytes _, _, h | .toolCall .., _, h | .toolSpec .., _, h | .object .., _, h =>
    dumpsOther_eq h ▸ stands_string _ rfl
theorem stands_dumpsItems : (items : List PyValue) → {parts : List Str} →
    dumpsItems options items = .ok parts → List.Forall₂ (Stands options) items parts
  | [], _, h => Except.ok.inj h ▸ .nil
  | v :: rest, _, h => by
    obtain ⟨part, hpart, h⟩ := bind_eq_ok.mp h
    obtain ⟨parts, hparts, h⟩ := bind_eq_ok.mp h
    exact Except.ok.inj h ▸ .cons (v.stands_dumps hpart) (stands_dumpsItems rest hparts)
theorem stands_dumpsPairs : (items : Mapping) → {parts : List Str} →
    dumpsPairs options items = .ok parts →
    List.Forall₂ (fun p t => ∃ text, t = jsonString options.ensureAscii p.1.jsonText ++
      lit ": " ++ text ∧ Stands options p.2 text) items parts
  | [], _, h => Except.ok.inj h ▸ .nil
  | (k, v) :: rest, _, h => by
    obtain ⟨key, hkey, h⟩ := bind_eq_ok.mp h
    obtain ⟨part, hpart, h⟩ := bind_eq_ok.mp h
    obtain ⟨parts, hparts, h⟩ := bind_eq_ok.mp h
    exact Except.ok.inj h ▸ .cons ⟨part, by rw [PyKey.dumps_eq hkey], v.stands_dumps hpart⟩
      (stands_dumpsPairs rest hparts)
end

theorem loads_dumps {v : PyValue} {text : Str} (h : v.dumps options = .ok text) :
    loads text = .ok (v.reread options) := by
  have hs := v.stands_dumps h
  have hscan := hs.scan (text.length + 1) [] (Nat.le_succ _) nofun
  have hskip := hs.skipSpace_append []
  rw [List.append_nil] at hscan hskip
  have hdecode : decode text = .ok (v.reread options) := by
    rw [decode, hskip, hscan]
    rfl
  obtain ⟨c, tail, rfl, -, -, hbom⟩ := hs.head
  have hfirst : (c :: tail).head? ≠ some (cp '\uFEFF') := fun hc => hbom (Option.some.inj hc)
  rw [loads, if_neg hfirst, hdecode]

end

end Python
