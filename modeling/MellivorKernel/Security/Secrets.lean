import MellivorKernel.Foundation.Dict
import MellivorKernel.Foundation.Returns
import MellivorKernel.Python.Exception
import MellivorKernel.Python.Printing

/-!
# Secrets

`Secret`, `EnvSecretProvider` and `SecretProviderRegistry`. The environment is
a mapping. A registry of environment providers gives what the first eligible
one has, but for names that end in a newline (`resolvesFirst_iff`).
-/

namespace MellivorKernel

open Python Foundation

structure Secret where
  name : Str
  value : Str
  name_ok : blank name = false
  value_ok : value ≠ []

def securityError (message : Str) : Exn := .raised .securityError message

def Secret.new (name value : Str) : Except Exn Secret :=
  if hname : blank name = false then
    if hvalue : value ≠ [] then .ok ⟨name, value, hname, hvalue⟩
    else .error (securityError (lit "Secret value must not be empty."))
  else .error (securityError (lit "Secret name must not be empty."))

abbrev SecretProvider := Str → Except Exn Secret

structure SecretProviderRegistry where
  providers : List SecretProvider

def SecretProviderRegistry.new : SecretProviderRegistry := ⟨[]⟩

def SecretProviderRegistry.register (registry : SecretProviderRegistry) (provider : SecretProvider) :
    SecretProviderRegistry := ⟨registry.providers ++ [provider]⟩

structure EnvSecretProvider where
  keyPrefix : Str

/-- `os.environ` -/
abbrev Environ := Dict Str Str

def isNameStart (c : CodePoint) : Bool :=
  (65 ≤ c.val && c.val ≤ 90) || (97 ≤ c.val && c.val ≤ 122) || c = cp '_'

def isNamePart (c : CodePoint) : Bool := isNameStart c || (48 ≤ c.val && c.val ≤ 57)

/-- `[A-Za-z_][A-Za-z0-9_]*` -/
def isEnvVarName : Str → Bool
  | [] => false
  | c :: rest => isNameStart c && rest.all isNamePart

/-- `_ENV_VAR_NAME_PATTERN.match(env_key)` -/
def envVarNamePattern : Str → Bool := dollar isEnvVarName

section
variable [Printing]

/-- `for provider in self._providers` -/
def resolveThrough (name : Str) : List SecretProvider → Except Exn Secret
  | [] => .error (securityError
      (lit "Secret " ++ pyRepr name ++ lit " is not available from any registered provider."))
  | provider :: rest =>
    match provider name with
    | .ok secret => .ok secret
    | .error exc => if exc.isA .securityError then resolveThrough name rest else .error exc

def SecretProviderRegistry.resolve (registry : SecretProviderRegistry) (name : Str) :
    Except Exn Secret := resolveThrough name registry.providers

def EnvSecretProvider.resolve (provider : EnvSecretProvider) (environ : Environ) (name : Str) :
    Except Exn Secret :=
  if blank name then
    .error (.raised .secretConfigurationError (lit "Secret name must not be blank."))
  else
    let envKey := provider.keyPrefix ++ name
    if !envVarNamePattern envKey then
      .error (.raised .secretConfigurationError (lit "Secret " ++ pyRepr name ++
        lit " resolves to environment variable key " ++ pyRepr envKey ++
        lit (", which is not a valid environment variable identifier " ++
          "(expected to match ^[A-Za-z_][A-Za-z0-9_]*$).")))
    else
      match environ.get? envKey with
      | none => .error (.raised .secretNotFoundError (lit "Secret " ++ pyRepr name ++
          lit " is not set (expected environment variable " ++ pyRepr envKey ++ lit ")."))
      | some value =>
        match Secret.new name value with
        | .ok secret => .ok secret
        | .error exc =>
          if exc.isA .securityError then .error (.raised .secretValueError (lit "Secret " ++
            pyRepr name ++ lit " is set via environment variable " ++ pyRepr envKey ++
            lit " but its value is invalid: " ++ exc.text))
          else .error exc

def registerAll (environ : Environ) (providers : List EnvSecretProvider) : SecretProviderRegistry :=
  providers.foldl (fun registry provider => registry.register (provider.resolve environ)) .new

end

-- ---------------------------------------------------------------------------
-- The first eligible provider
-- ---------------------------------------------------------------------------

def Identifier (s : Str) : Prop :=
  ∃ first rest, s = first :: rest ∧ isNameStart first = true ∧ ∀ c ∈ rest, isNamePart c = true

/-- The provider has this value under the name. -/
structure Eligible (environ : Environ) (name : Str) (provider : EnvSecretProvider) (value : Str) :
    Prop where
  notBlank : blank name = false
  identifier : Identifier (provider.keyPrefix ++ name)
  set : environ.get? (provider.keyPrefix ++ name) = some value
  notEmpty : value ≠ []

def FirstEligible (environ : Environ) (name : Str) (providers : List EnvSecretProvider)
    (value : Str) : Prop :=
  ∃ before provider after, providers = before ++ provider :: after ∧
    Eligible environ name provider value ∧
      ∀ earlier ∈ before, ∀ other, ¬ Eligible environ name earlier other

/-- The registry gives the secret of the first eligible provider, and refuses
the name if there is none. -/
structure ResolvesFirst [Printing] (environ : Environ) (name : Str)
    (providers : List EnvSecretProvider) : Prop where
  first : ∀ value, FirstEligible environ name providers value → ∃ secret,
    (registerAll environ providers).resolve name = .ok secret ∧ secret.name = name ∧
      secret.value = value
  none : (∀ value, ¬ FirstEligible environ name providers value) → ∃ message,
    (registerAll environ providers).resolve name = .error (.raised .securityError message)

/-- The key that one of the providers looks up is an identifier and a newline
after it, and is set. -/
def NewlineSet (environ : Environ) (name : Str) (providers : List EnvSecretProvider) : Prop :=
  blank name = false ∧ ∃ provider ∈ providers, ∃ base value,
    provider.keyPrefix ++ name = base ++ [cp '\n'] ∧ Identifier base ∧
      environ.get? (base ++ [cp '\n']) = some value ∧ value ≠ []

theorem isEnvVarName_iff {s : Str} : isEnvVarName s = true ↔ Identifier s := by
  cases s with
  | nil => simp [isEnvVarName, Identifier]
  | cons c rest => simp [isEnvVarName, Identifier]

theorem not_identifier_newline (base : Str) : ¬ Identifier (base ++ [cp '\n']) := by
  rw [← isEnvVarName_iff]
  cases base with
  | nil => decide
  | cons c base =>
    have hnewline : isNamePart (cp '\n') = false := by decide
    simp [isEnvVarName, hnewline]

theorem envVarNamePattern_iff {s : Str} : envVarNamePattern s = true ↔
    Identifier s ∨ ∃ base, s = base ++ [cp '\n'] ∧ Identifier base := by
  simp only [envVarNamePattern, dollar_iff, isEnvVarName_iff]

/-- Where one key ends in a newline, all do. -/
theorem not_eligible_of_newline {environ : Environ} {name before base value : Str}
    (hblank : blank name = false) (h : before ++ name = base ++ [cp '\n'])
    (provider : EnvSecretProvider) : ¬ Eligible environ name provider value := by
  rintro ⟨-, hidentifier, -, -⟩
  obtain ⟨shorter, last, rfl⟩ :=
    (List.eq_nil_or_concat name).resolve_left (ne_nil_of_not_blank hblank)
  rw [List.concat_eq_append, ← List.append_assoc] at h hidentifier
  obtain ⟨-, hlast⟩ := List.append_inj' h rfl
  rw [hlast] at hidentifier
  exact not_identifier_newline _ hidentifier

-- ---------------------------------------------------------------------------
-- Resolving
-- ---------------------------------------------------------------------------

theorem Secret.new_eq_ok {name value : Str} {secret : Secret} :
    Secret.new name value = .ok secret ↔ secret.name = name ∧ secret.value = value := by
  obtain ⟨name', value', hname, hvalue⟩ := secret
  unfold Secret.new
  constructor
  · intro h
    split at h
    · split at h
      · cases h
        exact ⟨rfl, rfl⟩
      · cases h
    · cases h
  · rintro ⟨rfl, rfl⟩
    rw [dif_pos hname, dif_pos hvalue]

abbrev IsSecurityError (exc : Exn) : Prop := exc.isA .securityError = true

theorem isSecurityError_secretConfigurationError (message : Str) :
    IsSecurityError (.raised .secretConfigurationError message) :=
  (by decide : ExnClass.isA .secretConfigurationError .securityError = true)

theorem Secret.new_raises (name value : Str) : RaisesOnly IsSecurityError (Secret.new name value) := by
  have herror (message : Str) : IsSecurityError (securityError message) :=
    (by decide : ExnClass.isA .securityError .securityError = true)
  unfold Secret.new
  split
  · split
    · exact raisesOnly_ok _
    · exact raisesOnly_error.mpr (herror _)
  · exact raisesOnly_error.mpr (herror _)

section
variable [Printing] {environ : Environ} {name : Str} {provider : EnvSecretProvider}
  {providers : List EnvSecretProvider}

/-- A blank name, a key that is no identifier, one that is not set, and an
empty value are all refused with a `SecurityError`. -/
theorem EnvSecretProvider.resolve_raises :
    RaisesOnly IsSecurityError (provider.resolve environ name) := by
  unfold EnvSecretProvider.resolve
  split
  · exact raisesOnly_error.mpr (isSecurityError_secretConfigurationError _)
  simp only
  split
  · exact raisesOnly_error.mpr (isSecurityError_secretConfigurationError _)
  split
  · exact raisesOnly_error.mpr
      (by decide : ExnClass.isA .secretNotFoundError .securityError = true)
  split
  · exact raisesOnly_ok _
  · rename_i exc h
    rw [if_pos (Secret.new_raises _ _ exc h)]
    exact raisesOnly_error.mpr (by decide : ExnClass.isA .secretValueError .securityError = true)

theorem EnvSecretProvider.resolve_eq_ok {secret : Secret} :
    provider.resolve environ name = .ok secret ↔ blank name = false ∧
      envVarNamePattern (provider.keyPrefix ++ name) = true ∧
        environ.get? (provider.keyPrefix ++ name) = some secret.value ∧ secret.name = name := by
  constructor
  · intro h
    unfold EnvSecretProvider.resolve at h
    split at h
    · cases h
    rename_i hblank
    simp only at h
    split at h
    · cases h
    rename_i hpattern
    split at h
    · cases h
    rename_i value hset
    split at h
    · rename_i hnew
      cases h
      obtain ⟨hname, hvalue⟩ := Secret.new_eq_ok.mp hnew
      exact ⟨by simpa using hblank, by simpa using hpattern, hvalue ▸ hset, hname⟩
    · split at h <;> cases h
  · rintro ⟨hblank, hpattern, hset, hname⟩
    have hnew := Secret.new_eq_ok.mpr ⟨hname, rfl⟩
    rw [EnvSecretProvider.resolve, if_neg (by simp [hblank])]
    simp only [hpattern, hset, hnew, Bool.not_true, Bool.false_eq_true, if_false]

theorem resolveThrough_eq {through : List SecretProvider}
    (h : ∀ provider ∈ through, RaisesOnly IsSecurityError (provider name)) :
    resolveThrough name through =
      match through.findSome? fun provider => (provider name).toOption with
      | some secret => .ok secret
      | none => .error (securityError
          (lit "Secret " ++ pyRepr name ++ lit " is not available from any registered provider.")) := by
  induction through with
  | nil => rfl
  | cons provider rest ih =>
    obtain ⟨hprovider, hrest⟩ := List.forall_mem_cons.mp h
    rw [resolveThrough, List.findSome?_cons]
    cases hresolve : provider name with
    | ok secret => rfl
    | error exc =>
      exact (if_pos (hprovider exc hresolve)).trans (ih hrest)

theorem registerAll_providers : (registerAll environ providers).providers =
    providers.map fun provider => provider.resolve environ := by
  have hfold (registry : SecretProviderRegistry) :
      (providers.foldl (fun registry provider => registry.register (provider.resolve environ))
        registry).providers =
        registry.providers ++ providers.map fun provider => provider.resolve environ := by
    induction providers generalizing registry with
    | nil => simp
    | cons provider providers ih =>
      rw [List.foldl_cons, ih]
      simp [SecretProviderRegistry.register]
  exact hfold .new

theorem resolve_registerAll : (registerAll environ providers).resolve name =
    match providers.findSome? fun provider => (provider.resolve environ name).toOption with
    | some secret => .ok secret
    | none => .error (securityError
        (lit "Secret " ++ pyRepr name ++ lit " is not available from any registered provider.")) := by
  rw [SecretProviderRegistry.resolve, registerAll_providers, resolveThrough_eq, List.findSome?_map]
  · rfl
  · intro through hthrough
    obtain ⟨provider, -, rfl⟩ := List.mem_map.mp hthrough
    exact EnvSecretProvider.resolve_raises

theorem resolve_eligible (h : ¬ NewlineSet environ name providers) (hmem : provider ∈ providers)
    {secret : Secret} : provider.resolve environ name = .ok secret ↔
      Eligible environ name provider secret.value ∧ secret.name = name := by
  rw [EnvSecretProvider.resolve_eq_ok]
  constructor
  · rintro ⟨hblank, hpattern, hset, hname⟩
    refine ⟨⟨hblank, ?_, hset, secret.value_ok⟩, hname⟩
    refine (envVarNamePattern_iff.mp hpattern).resolve_right ?_
    rintro ⟨base, hkey, hbase⟩
    exact h ⟨hblank, provider, hmem, base, secret.value, hkey, hbase, hkey ▸ hset, secret.value_ok⟩
  · rintro ⟨⟨hblank, hidentifier, hset, -⟩, hname⟩
    exact ⟨hblank, envVarNamePattern_iff.mpr (.inl hidentifier), hset, hname⟩

theorem findSome?_eq_firstEligible (h : ¬ NewlineSet environ name providers) {secret : Secret} :
    (providers.findSome? fun provider => (provider.resolve environ name).toOption) = some secret ↔
      FirstEligible environ name providers secret.value ∧ secret.name = name := by
  rw [List.findSome?_eq_some_iff]
  simp only [toOption_eq_some]
  constructor
  · rintro ⟨before, provider, after, hproviders, hresolve, hbefore⟩
    have hmem : provider ∈ providers := by simp [hproviders]
    obtain ⟨heligible, hname⟩ := (resolve_eligible h hmem).mp hresolve
    refine ⟨⟨before, provider, after, hproviders, heligible, fun earlier hearlier other hother => ?_⟩,
      hname⟩
    have hmem' : earlier ∈ providers := by simp [hproviders, hearlier]
    have hresolves : earlier.resolve environ name =
        .ok ⟨name, other, hother.notBlank, hother.notEmpty⟩ :=
      (resolve_eligible h hmem').mpr ⟨hother, rfl⟩
    have hnothing := hbefore earlier hearlier
    rw [hresolves] at hnothing
    cases hnothing
  · rintro ⟨⟨before, provider, after, hproviders, heligible, hbefore⟩, hname⟩
    have hmem : provider ∈ providers := by simp [hproviders]
    refine ⟨before, provider, after, hproviders, (resolve_eligible h hmem).mpr ⟨heligible, hname⟩,
      fun earlier hearlier => ?_⟩
    have hmem' : earlier ∈ providers := by simp [hproviders, hearlier]
    cases hresolve : earlier.resolve environ name with
    | error exc => rfl
    | ok other =>
      exact absurd ((resolve_eligible h hmem').mp hresolve).1 (hbefore earlier hearlier _)

theorem resolvesFirst_of_not_newlineSet (h : ¬ NewlineSet environ name providers) :
    ResolvesFirst environ name providers where
  first value hfirst := by
    obtain ⟨_, _, _, _, heligible, _⟩ := id hfirst
    let secret : Secret := ⟨name, value, heligible.notBlank, heligible.notEmpty⟩
    have hsecret := (@findSome?_eq_firstEligible _ _ _ _ h secret).mpr ⟨hfirst, rfl⟩
    exact ⟨secret, by rw [resolve_registerAll, hsecret], rfl, rfl⟩
  none hnone := by
    rw [resolve_registerAll]
    split
    · rename_i secret hsecret
      exact absurd ((findSome?_eq_firstEligible h).mp hsecret).1 (hnone _)
    · exact ⟨_, rfl⟩

theorem not_resolvesFirst_of_newlineSet (h : NewlineSet environ name providers) :
    ¬ ResolvesFirst environ name providers := by
  obtain ⟨hblank, provider, hmem, base, value, hkey, hbase, hset, hvalue⟩ := h
  rintro ⟨-, hnone⟩
  have hineligible : ∀ value, ¬ FirstEligible environ name providers value := by
    rintro _ ⟨_, other, _, -, heligible, -⟩
    exact not_eligible_of_newline hblank hkey other heligible
  obtain ⟨message, hresolve⟩ := hnone hineligible
  have hok : provider.resolve environ name = .ok ⟨name, value, hblank, hvalue⟩ :=
    EnvSecretProvider.resolve_eq_ok.mpr
      ⟨hblank, envVarNamePattern_iff.mpr (.inr ⟨base, hkey, hbase⟩), hkey ▸ hset, rfl⟩
  rw [resolve_registerAll] at hresolve
  split at hresolve
  · cases hresolve
  · rename_i hnothing
    have hprovider := List.findSome?_eq_none_iff.mp hnothing provider hmem
    rw [hok] at hprovider
    cases hprovider

/-- The registry resolves as it should unless a key with a newline after it is
set. -/
theorem resolvesFirst_iff (environ : Environ) (name : Str) (providers : List EnvSecretProvider) :
    ResolvesFirst environ name providers ↔ ¬ NewlineSet environ name providers :=
  ⟨fun h hnewline => not_resolvesFirst_of_newlineSet hnewline h, resolvesFirst_of_not_newlineSet⟩

end

def newlineEnviron : Environ := Dict.empty.set (lit "API_KEY\n") (lit "v")

/-- The key is no identifier, and its value is handed out. -/
theorem newlineKey_resolves :
    (∃ secret, @EnvSecretProvider.resolve plainPrinting ⟨[]⟩ newlineEnviron (lit "API_KEY\n") =
      .ok secret) ∧ ¬ @ResolvesFirst plainPrinting newlineEnviron (lit "API_KEY\n") [⟨[]⟩] := by
  have hblank : blank (lit "API_KEY\n") = false := by decide
  have hbase : Identifier (lit "API_KEY") := isEnvVarName_iff.mp (by decide)
  have hset : newlineEnviron.get? (lit "API_KEY\n") = some (lit "v") := Dict.get?_set_self _ _ _
  have hvalue : lit "v" ≠ [] := by decide
  constructor
  · refine ⟨⟨lit "API_KEY\n", lit "v", hblank, hvalue⟩, ?_⟩
    rw [@EnvSecretProvider.resolve_eq_ok plainPrinting]
    exact ⟨hblank, envVarNamePattern_iff.mpr (.inr ⟨_, rfl, hbase⟩), hset, rfl⟩
  · refine @not_resolvesFirst_of_newlineSet plainPrinting _ _ _ ⟨hblank, ⟨[]⟩, by simp, ?_⟩
    exact ⟨lit "API_KEY", lit "v", rfl, hbase, hset, hvalue⟩

end MellivorKernel
