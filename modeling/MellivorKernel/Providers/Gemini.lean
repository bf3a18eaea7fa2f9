import MellivorKernel.Providers.Claude

/-!
# Gemini contents

`GeminiProvider._translate_messages`, and the sense in which it,
`ClaudeProvider._messages_from` and `messages_to_chat` agree on messages of
plain text (`translators_agree`).
-/

namespace MellivorKernel

open Python Foundation

def geminiError (message : Str) : Exn := .raised .geminiProviderError message

/-- What the code uses of the package's `types`: plain containers. -/
structure GenaiTypes where
  Content : Type
  Part : Type
  fromText : Str → Part
  text : Part → Str
  content : Str → List Part → Content
  role : Content → Str
  parts : Content → List Part
  text_fromText (s : Str) : text (fromText s) = s
  role_content (r : Str) (ps : List Part) : role (content r ps) = r
  parts_content (r : Str) (ps : List Part) : parts (content r ps) = ps

def roleMap : List (Str × Str) := [(lit "user", lit "user"), (lit "assistant", lit "model")]

structure GeminiParts (types : GenaiTypes) where
  systemParts : List Str
  contents : List types.Content

section
variable [Printing] (types : GenaiTypes)

def GeminiParts.add (parts : GeminiParts types) (entry : PyValue) :
    Except Exn (GeminiParts types) :=
  match entry.mapping? with
  | none => .error (geminiError (lit "Each entry in request['messages'] must be a mapping."))
  | some entry =>
    match ((entry.get? "role").bind PyValue.str?).filter (!blank ·) with
    | none => .error (geminiError
        (lit "Each entry in request['messages'] must have a non-empty string 'role'."))
    | some role =>
      match (entry.get? "content").bind PyValue.str? with
      | none => .error (geminiError
          (lit "Each entry in request['messages'] must have a string 'content'."))
      | some content =>
        if role = lit "system" then .ok { parts with systemParts := parts.systemParts ++ [content] }
        else
          match roleMap.lookup role with
          | none => .error (geminiError (lit "request['messages'] role " ++ pyRepr role ++
              lit " is not supported; expected 'system', 'user', or 'assistant'."))
          | some geminiRole => .ok { parts with
              contents := parts.contents ++ [types.content geminiRole [types.fromText content]] }

def GeminiParts.finish (parts : GeminiParts types) :
    Except Exn (List types.Content × Option Str) :=
  if 1 < parts.systemParts.length then
    .error (geminiError
      (lit "request['messages'] must include at most one message with role 'system'."))
  else if parts.contents.isEmpty then
    .error (geminiError (lit "request['messages'] must include at least one non-system message."))
  else .ok (parts.contents, parts.systemParts.head?)

def translateMessages (messages : PyValue) : Except Exn (List types.Content × Option Str) :=
  match messages with
  | .list (first :: more) => do
    let parts ← (first :: more).foldlM (GeminiParts.add types) ⟨[], []⟩
    parts.finish
  | _ => .error (geminiError (lit "request['messages'] must be a non-empty list."))

end

-- ---------------------------------------------------------------------------
-- Plain text
-- ---------------------------------------------------------------------------

structure PlainTurn where
  role : Str
  text : Str

/-- The entry is a mapping with this role and text, whatever else it has. -/
def Says (entry : PyValue) (turn : PlainTurn) : Prop :=
  ∃ message : Mapping, entry = .dict message ∧ message.get? "role" = some (.str turn.role) ∧
    message.get? "content" = some (.str turn.text)

def PlainTurn.message (turn : PlainTurn) : Mapping :=
  [item "role" (.str turn.role), item "content" (.str turn.text)]

def PlainTurn.isSystem (turn : PlainTurn) : Bool := turn.role = lit "system"

/-- The role under Gemini's name, and the texts of the parts. -/
def PlainTurn.renamed (turn : PlainTurn) : Str × List Str :=
  (if turn.role = lit "assistant" then lit "model" else turn.role, [turn.text])

def GenaiTypes.read (types : GenaiTypes) (content : types.Content) : Str × List Str :=
  (types.role content, (types.parts content).map types.text)

section
variable [Printing]

theorem toAnthropicMessage_said {entry : PyValue} {turn : PlainTurn} (h : Says entry turn)
    {out : Mapping} : toAnthropicMessage entry = .ok out ↔
      (turn.role = lit "user" ∨ turn.role = lit "assistant") ∧ blank turn.text = false ∧
        turn.message = out := by
  obtain ⟨message, rfl, hrole, hcontent⟩ := h
  simp only [toAnthropicMessage, PyValue.mapping?, hrole, hcontent, Option.getD_some, PyValue.eq,
    PlainTurn.message]
  by_cases hallowed : turn.role = lit "user" ∨ turn.role = lit "assistant"
  · cases hblank : blank turn.text <;> simp [hallowed]
  · simp [hallowed]

theorem messageToChat_said (error : Str → Exn) {entry : PyValue} {turn : PlainTurn}
    (h : Says entry turn) {out : List Mapping} : messageToChat error entry = .ok out ↔
      turn.role ∈ allowedRoles ∧ [turn.message] = out := by
  obtain ⟨message, rfl, hrole, hcontent⟩ := h
  simp only [messageToChat, PyValue.mapping?, hrole, hcontent, Option.bind_some, PyValue.str?,
    PlainTurn.message]
  by_cases hallowed : turn.role ∈ allowedRoles <;> simp [hallowed, Option.filter]

omit [Printing] in
theorem lookup_roleMap {turn : PlainTurn} (hsystem : turn.isSystem = false) :
    roleMap.lookup turn.role = if turn.role ∈ allowedRoles then some turn.renamed.1 else none := by
  have hrole : turn.role ≠ lit "system" := by simpa [PlainTurn.isSystem] using hsystem
  by_cases huser : turn.role = lit "user"
  · simp only [PlainTurn.renamed, huser]
    decide
  · by_cases hassistant : turn.role = lit "assistant"
    · simp only [PlainTurn.renamed, hassistant]
      decide
    · simp [roleMap, List.lookup_cons, allowedRoles, hrole, huser, hassistant,
        beq_false_of_ne huser, beq_false_of_ne hassistant]

def GeminiParts.say {types : GenaiTypes} (parts : GeminiParts types) (turn : PlainTurn) :
    GeminiParts types :=
  if turn.isSystem then { parts with systemParts := parts.systemParts ++ [turn.text] }
  else { parts with contents := parts.contents ++
    [types.content turn.renamed.1 [types.fromText turn.text]] }

theorem add_said {types : GenaiTypes} {parts parts' : GeminiParts types} {entry : PyValue}
    {turn : PlainTurn} (h : Says entry turn) : GeminiParts.add types parts entry = .ok parts' ↔
      turn.role ∈ allowedRoles ∧ parts.say turn = parts' := by
  obtain ⟨message, rfl, hrole, hcontent⟩ := h
  have hnamed : turn.role ∈ allowedRoles → blank turn.role = false := by
    simp only [allowedRoles, List.mem_cons, List.not_mem_nil, or_false]
    rintro (h | h | h) <;> rw [h] <;> decide
  simp only [GeminiParts.add, PyValue.mapping?, hrole, hcontent, Option.bind_some, PyValue.str?]
  by_cases hblank : blank turn.role = true
  · have hnot : turn.role ∉ allowedRoles := mt hnamed (by simp [hblank])
    simp [Option.filter, hblank, hnot]
  · have hfilter : (some turn.role).filter (!blank ·) = some turn.role := by simp [hblank]
    simp only [hfilter]
    by_cases hsystem : turn.isSystem = true
    · have hrole : turn.role = lit "system" := by simpa [PlainTurn.isSystem] using hsystem
      have hallowed : turn.role ∈ allowedRoles := by simp [hrole, allowedRoles]
      rw [if_pos hrole]
      simp [GeminiParts.say, hsystem, hallowed]
    · have hrole : turn.role ≠ lit "system" := by simpa [PlainTurn.isSystem] using hsystem
      have hlookup := lookup_roleMap (by simpa using hsystem)
      by_cases hallowed : turn.role ∈ allowedRoles <;>
        simp [GeminiParts.say, hsystem, hrole, hlookup, hallowed]

-- ---------------------------------------------------------------------------
-- Conversations
-- ---------------------------------------------------------------------------

section
variable {messages : List PyValue} {turns : List PlainTurn} (hsaid : List.Forall₂ Says messages turns)
include hsaid

theorem mapM_toAnthropicMessage_said {out : List Mapping} :
    messages.mapM toAnthropicMessage = .ok out ↔
      (∀ turn ∈ turns, (turn.role = lit "user" ∨ turn.role = lit "assistant") ∧
        blank turn.text = false) ∧ turns.map PlainTurn.message = out := by
  refine mapM_eq_ok_of_forall₂ (hsaid.imp fun _ _ h _ => ?_)
  rw [toAnthropicMessage_said h, and_assoc]

theorem mapM_messageToChat_said (error : Str → Exn) {out : List (List Mapping)} :
    messages.mapM (messageToChat error) = .ok out ↔
      (∀ turn ∈ turns, turn.role ∈ allowedRoles) ∧
        (turns.map fun turn => [turn.message]) = out :=
  mapM_eq_ok_of_forall₂ (hsaid.imp fun _ _ h _ => messageToChat_said error h)

theorem foldlM_add_said {types : GenaiTypes} {parts parts' : GeminiParts types} :
    messages.foldlM (GeminiParts.add types) parts = .ok parts' ↔
      (∀ turn ∈ turns, turn.role ∈ allowedRoles) ∧ turns.foldl GeminiParts.say parts = parts' := by
  induction hsaid generalizing parts with
  | nil => simp [pure, Except.pure]
  | cons hentry _ ih =>
    rw [List.foldlM_cons, bind_eq_ok]
    simp [add_said hentry, ih, and_assoc]

end

omit [Printing] in
theorem foldl_say {types : GenaiTypes} (parts : GeminiParts types) (turns : List PlainTurn) :
    (turns.foldl GeminiParts.say parts).systemParts =
        parts.systemParts ++ (turns.filter PlainTurn.isSystem).map PlainTurn.text ∧
      ((turns.foldl GeminiParts.say parts).contents.map types.read =
        parts.contents.map types.read ++
          (turns.filter (!PlainTurn.isSystem ·)).map PlainTurn.renamed) := by
  induction turns generalizing parts with
  | nil => simp
  | cons turn turns ih =>
    obtain ⟨hsystem, hcontents⟩ := ih (parts.say turn)
    rw [List.foldl_cons, hsystem, hcontents]
    cases h : turn.isSystem <;>
      simp [GeminiParts.say, h, GenaiTypes.read, types.role_content, types.parts_content,
        types.text_fromText, PlainTurn.renamed]

theorem claudeMessagesFrom_said {messages : List PyValue} {turns : List PlainTurn}
    (hsaid : List.Forall₂ Says messages turns) {request : Mapping}
    (hrequest : request.get? "messages" = some (.list messages)) {out : List Mapping}
    (h : claudeMessagesFrom request = .ok out) :
    turns ≠ [] ∧ (∀ turn ∈ turns, (turn.role = lit "user" ∨ turn.role = lit "assistant") ∧
      blank turn.text = false) ∧ turns.map PlainTurn.message = out := by
  simp only [claudeMessagesFrom, hrequest, Option.getD_some] at h
  split at h
  case h_4 =>
    cases hsaid with
    | nil => cases h
    | cons hentry hrest =>
      exact ⟨by simp, (mapM_toAnthropicMessage_said (.cons hentry hrest)).mp h⟩
  all_goals simp_all

theorem translateMessages_said (types : GenaiTypes) {messages : List PyValue} {turns : List PlainTurn}
    (hsaid : List.Forall₂ Says messages turns) {contents : List types.Content}
    {systemInstruction : Option Str} :
    translateMessages types (.list messages) = .ok (contents, systemInstruction) ↔
      (∀ turn ∈ turns, turn.role ∈ allowedRoles) ∧ turns.countP PlainTurn.isSystem ≤ 1 ∧
        (∃ turn ∈ turns, turn.isSystem = false) ∧
        (turns.foldl GeminiParts.say ⟨[], []⟩).contents = contents ∧
        (turns.filter PlainTurn.isSystem).head?.map PlainTurn.text = systemInstruction := by
  have hfold := @foldl_say types ⟨[], []⟩ turns
  simp only [List.nil_append, List.map_nil] at hfold
  obtain ⟨hsystem, hcontents⟩ := hfold
  have hlength : (turns.foldl GeminiParts.say (⟨[], []⟩ : GeminiParts types)).systemParts.length =
      turns.countP PlainTurn.isSystem := by
    rw [hsystem, List.length_map, List.countP_eq_length_filter]
  have hempty : (turns.foldl GeminiParts.say (⟨[], []⟩ : GeminiParts types)).contents.isEmpty =
      false ↔ ∃ turn ∈ turns, turn.isSystem = false := by
    rw [← Bool.not_eq_true, List.isEmpty_iff, ← List.map_eq_nil_iff (f := types.read), hcontents]
    simp
  cases hsaid with
  | nil => simp [translateMessages]
  | cons hentry hrest =>
    rw [translateMessages, bind_eq_ok]
    simp only [foldlM_add_said (.cons hentry hrest), GeminiParts.finish]
    generalize List.foldl GeminiParts.say _ _ = parts at hsystem hcontents hlength hempty ⊢
    constructor
    · rintro ⟨_, ⟨hallowed, rfl⟩, h⟩
      split at h
      · cases h
      · rename_i hatMost
        split at h
        · cases h
        · rename_i hsome
          cases h
          rw [hlength] at hatMost
          refine ⟨hallowed, by omega, hempty.mp (by simpa using hsome), rfl, ?_⟩
          rw [hsystem, List.head?_map]
    · rintro ⟨hallowed, hatMost, hother, rfl, rfl⟩
      refine ⟨_, ⟨hallowed, rfl⟩, ?_⟩
      rw [if_neg (by omega), if_neg (by simp [hempty.mpr hother]), hsystem, List.head?_map]

theorem messagesToChat_said (error : Str → Exn) {messages : List PyValue} {turns : List PlainTurn}
    (hsaid : List.Forall₂ Says messages turns) {out : List Mapping} :
    messagesToChat error (.list messages) .none = .ok out ↔
      turns ≠ [] ∧ (∀ turn ∈ turns, turn.role ∈ allowedRoles) ∧
        turns.map PlainTurn.message = out := by
  rw [messagesToChat_eq_ok]
  simp only [systemMessages, mapM_messageToChat_said hsaid]
  have hflatten : (turns.map fun turn => [turn.message]).flatten = turns.map PlainTurn.message := by
    rw [← List.flatMap_def, ← List.map_eq_flatMap]
  have hne : messages ≠ [] ↔ turns ≠ [] := by
    cases hsaid <;> simp
  rw [hne]
  constructor
  · rintro ⟨hturns, _, _, hopening, ⟨hallowed, rfl⟩, rfl⟩
    cases hopening
    exact ⟨hturns, hallowed, hflatten.symm⟩
  · rintro ⟨hturns, hallowed, rfl⟩
    exact ⟨hturns, _, _, rfl, ⟨hallowed, rfl⟩, hflatten.symm⟩

-- ---------------------------------------------------------------------------
-- Agreement
-- ---------------------------------------------------------------------------

/-- What one translator accepts the next accepts, and they agree on what was
said. -/
theorem translators_agree (types : GenaiTypes) (error : Str → Exn) (messages : List PyValue)
    (turns : List PlainTurn) (hsaid : List.Forall₂ Says messages turns) :
    (∀ request out, request.get? "messages" = some (.list messages) →
      claudeMessagesFrom request = .ok out →
        ∃ contents chat, translateMessages types (.list messages) = .ok (contents, none) ∧
          messagesToChat error (.list messages) .none = .ok chat ∧
          out = turns.map PlainTurn.message ∧ contents.map types.read = turns.map PlainTurn.renamed ∧
          chat = turns.map PlainTurn.message) ∧
      (∀ contents systemInstruction,
        translateMessages types (.list messages) = .ok (contents, systemInstruction) →
          ∃ chat, messagesToChat error (.list messages) .none = .ok chat ∧
            chat = turns.map PlainTurn.message ∧
            contents.map types.read = (turns.filter (!PlainTurn.isSystem ·)).map PlainTurn.renamed ∧
            systemInstruction.toList = (turns.filter PlainTurn.isSystem).map PlainTurn.text) ∧
      (Returns (messagesToChat error (.list messages) .none) →
        turns.countP PlainTurn.isSystem ≤ 1 → (∃ turn ∈ turns, turn.isSystem = false) →
          Returns (translateMessages types (.list messages))) := by
  refine ⟨fun request out hrequest h => ?_, fun contents systemInstruction h => ?_,
    fun h hsystem hother => ?_⟩
  · obtain ⟨hne, hturns, rfl⟩ := claudeMessagesFrom_said hsaid hrequest h
    have hallowed : ∀ turn ∈ turns, turn.role ∈ allowedRoles := by
      intro turn hturn
      rcases (hturns turn hturn).1 with h | h <;> simp [h, allowedRoles]
    have hplain : ∀ turn ∈ turns, turn.isSystem = false := by
      intro turn hturn
      rcases (hturns turn hturn).1 with h | h <;> rw [PlainTurn.isSystem, h] <;> decide
    have hnone : turns.filter PlainTurn.isSystem = [] :=
      List.filter_eq_nil_iff.mpr fun turn hturn => by simp [hplain turn hturn]
    have hall : turns.filter (!PlainTurn.isSystem ·) = turns :=
      List.filter_eq_self.mpr fun turn hturn => by simp [hplain turn hturn]
    obtain ⟨turn, hturn⟩ := List.exists_mem_of_ne_nil _ hne
    have htranslated := (translateMessages_said types hsaid).mpr ⟨hallowed,
      by simp [List.countP_eq_length_filter, hnone], ⟨turn, hturn, hplain turn hturn⟩, rfl, rfl⟩
    rw [hnone] at htranslated
    refine ⟨_, _, htranslated, (messagesToChat_said error hsaid).mpr ⟨hne, hallowed, rfl⟩, rfl, ?_,
      rfl⟩
    simpa [hall] using (foldl_say (⟨[], []⟩ : GeminiParts types) turns).2
  · obtain ⟨hallowed, hsystem, ⟨other, hother, -⟩, rfl, rfl⟩ :=
      (translateMessages_said types hsaid).mp h
    refine ⟨_, (messagesToChat_said error hsaid).mpr ⟨List.ne_nil_of_mem hother, hallowed, rfl⟩, rfl,
      ?_, ?_⟩
    · simpa using (foldl_say (⟨[], []⟩ : GeminiParts types) turns).2
    · rw [List.countP_eq_length_filter] at hsystem
      rcases hfilter : turns.filter PlainTurn.isSystem with _ | ⟨turn, _ | _⟩
      · rfl
      · rfl
      · simp [hfilter] at hsystem
  · obtain ⟨out, hout⟩ := h
    obtain ⟨-, hallowed, -⟩ := (messagesToChat_said error hsaid).mp hout
    exact ⟨_, (translateMessages_said types hsaid).mpr ⟨hallowed, hsystem, hother, rfl, rfl⟩⟩

end

def greeting : List PlainTurn := [⟨lit "user", lit "Hello"⟩, ⟨lit "assistant", lit "Hi"⟩]

def pairTypes : GenaiTypes where
  Content := Str × List Str
  Part := Str
  fromText := id
  text := id
  content := Prod.mk
  role := Prod.fst
  parts := Prod.snd
  text_fromText _ := rfl
  role_content _ _ := rfl
  parts_content _ _ := rfl

theorem says_message (turn : PlainTurn) : Says (.dict turn.message) turn :=
  ⟨_, rfl, by simp [PlainTurn.message], by simp [PlainTurn.message]⟩

theorem greeting_agrees :
    ∃ contents chat,
      @translateMessages plainPrinting pairTypes
        (.list (greeting.map fun turn => .dict turn.message)) = .ok (contents, none) ∧
      @messagesToChat plainPrinting claudeError
        (.list (greeting.map fun turn => .dict turn.message)) .none = .ok chat ∧
      contents.map pairTypes.read = greeting.map PlainTurn.renamed ∧
      chat = greeting.map PlainTurn.message := by
  let _ : Printing := plainPrinting
  have hsaid : List.Forall₂ Says (greeting.map fun turn => .dict turn.message) greeting := by
    simp [greeting, says_message]
  obtain ⟨contents, chat, hgemini, hchat, -, hcontents, hturns⟩ :=
    (translators_agree pairTypes claudeError _ greeting hsaid).1
      [item "messages" (.list (greeting.map fun turn => .dict turn.message))] _ rfl rfl
  exact ⟨contents, chat, hgemini, hchat, hcontents, hturns⟩

end MellivorKernel
