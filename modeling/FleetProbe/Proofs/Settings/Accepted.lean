import FleetProbe.Settings.Load
/-!
What is known of settings that were loaded: each of them was read from the layers of values, and
kept to the bounds it is read with.
-/

namespace FleetProbe.Settings

theorem bind_eq_ok {ε β γ : Type} {x : Except ε β} {f : β → Except ε γ} {c : γ}
    (h : x >>= f = .ok c) : ∃ b, x = .ok b ∧ f b = .ok c := by
  cases x with
  | error e => cases h
  | ok b => exact ⟨b, rfl, h⟩

theorem boundedText_ok {least most : Nat} {v : Value} {t : Text}
    (h : boundedText least most v = .ok t) :
    ¬ t.points.any Text.isSurrogate = true ∧ least ≤ t.length ∧ t.length ≤ most := by
  obtain ⟨u, -, h⟩ := bind_eq_ok h
  split at h
  · cases h
  · next hplain =>
    split at h
    · cases h
    · split at h
      · cases h
      · cases h
        refine ⟨hplain, ?_, ?_⟩
        · omega
        · omega

theorem atLeast_ok {least n : Int} {v : Value} (h : atLeast least v = .ok n) : least ≤ n := by
  obtain ⟨m, -, h⟩ := bind_eq_ok h
  split at h
  · cases h
  · cases h
    omega

/-- A setting is its default, or was read. -/
theorem Layers.get_ok {β : Type} {layers : Layers} {name : String} {standard b : β}
    {read : Value → Except Problem β} (h : layers.get name read standard = .ok b) :
    b = standard ∨ ∃ v, read v = .ok b := by
  unfold Layers.get at h
  split at h
  · cases h
    exact .inl rfl
  · next v _ => exact .inr ⟨v, h⟩

/-- Every setting is in order. -/
structure Accepted (layers : Layers) (s : Settings) : Prop where
  serviceName : readServiceName layers = .ok s.serviceName
  catalogHost : readCatalogHost layers = .ok s.catalogHost
  catalogPort : readCatalogPort layers = .ok s.catalogPort
  catalogScheme : readCatalogScheme layers = .ok s.catalogScheme
  catalogToken : readCatalogToken layers = .ok s.catalogToken
  catalogWait : readCatalogWait layers = .ok s.catalogWait
  tag : readTag layers = .ok s.tag
  pollInterval : readPollInterval layers = .ok s.pollInterval
  pollCapacity : readPollCapacity layers = .ok s.pollCapacity
  probeInterval : readProbeInterval layers = .ok s.probeInterval
  commandTimeout : readCommandTimeout layers = .ok s.commandTimeout
  connectTimeout : readConnectTimeout layers = .ok s.connectTimeout
  reconnectBackoff : readReconnectBackoff layers = .ok s.reconnectBackoff
  probeKey : readProbeKey layers = .ok s.probeKey
  probeValue : readProbeValue layers = .ok s.probeValue
  probeTtl : readProbeTtl layers = .ok s.probeTtl
  endpointHost : readEndpointHost layers = .ok s.endpointHost
  endpointPort : readEndpointPort layers = .ok s.endpointPort
  logLevel : readLogLevel layers = .ok s.logLevel
  logFormat : readLogFormat layers = .ok s.logFormat

theorem ofLayers?_accepted {layers : Layers} {s : Settings} (h : ofLayers? layers = .ok s) :
    Accepted layers s := by
  unfold ofLayers? at h
  obtain ⟨serviceName, hserviceName, h⟩ := bind_eq_ok h
  obtain ⟨catalogHost, hcatalogHost, h⟩ := bind_eq_ok h
  obtain ⟨catalogPort, hcatalogPort, h⟩ := bind_eq_ok h
  obtain ⟨catalogScheme, hcatalogScheme, h⟩ := bind_eq_ok h
  obtain ⟨catalogToken, hcatalogToken, h⟩ := bind_eq_ok h
  obtain ⟨catalogWait, hcatalogWait, h⟩ := bind_eq_ok h
  obtain ⟨tag, htag, h⟩ := bind_eq_ok h
  obtain ⟨pollInterval, hpollInterval, h⟩ := bind_eq_ok h
  obtain ⟨pollCapacity, hpollCapacity, h⟩ := bind_eq_ok h
  obtain ⟨probeInterval, hprobeInterval, h⟩ := bind_eq_ok h
  obtain ⟨commandTimeout, hcommandTimeout, h⟩ := bind_eq_ok h
  obtain ⟨connectTimeout, hconnectTimeout, h⟩ := bind_eq_ok h
  obtain ⟨reconnectBackoff, hreconnectBackoff, h⟩ := bind_eq_ok h
  obtain ⟨probeKey, hprobeKey, h⟩ := bind_eq_ok h
  obtain ⟨probeValue, hprobeValue, h⟩ := bind_eq_ok h
  obtain ⟨probeTtl, hprobeTtl, h⟩ := bind_eq_ok h
  obtain ⟨endpointHost, hendpointHost, h⟩ := bind_eq_ok h
  obtain ⟨endpointPort, hendpointPort, h⟩ := bind_eq_ok h
  obtain ⟨logLevel, hlogLevel, h⟩ := bind_eq_ok h
  obtain ⟨logFormat, hlogFormat, h⟩ := bind_eq_ok h
  cases h
  exact ⟨hserviceName, hcatalogHost, hcatalogPort, hcatalogScheme, hcatalogToken, hcatalogWait, htag,
    hpollInterval, hpollCapacity, hprobeInterval, hcommandTimeout, hconnectTimeout,
    hreconnectBackoff, hprobeKey, hprobeValue, hprobeTtl, hendpointHost, hendpointPort, hlogLevel,
    hlogFormat⟩

theorem read_accepted {layers : Layers} {s : Settings} (h : read layers = .ok s) :
    Accepted layers s := by
  unfold read at h
  split at h
  · cases h
  · split at h
    · next hs =>
      cases h
      exact ofLayers?_accepted hs
    · cases h

/-- Settings that were loaded were read from layers of values. -/
theorem load_read {start : Surroundings} {path : Option Text} {given : List (Text × Value)}
    {s : Settings} (h : load start path given = .ok s) : ∃ layers, read layers = .ok s := by
  unfold load at h
  -- With and without a file, entries come to the same end.
  cases path
  all_goals
    obtain ⟨entries, -, h⟩ := bind_eq_ok h
    obtain ⟨named, -, h⟩ := bind_eq_ok h
    split at h
    · cases h
    · split at h
      · next hs =>
        cases h
        exact ⟨_, hs⟩
      · cases h

theorem load_accepted {start : Surroundings} {path : Option Text} {given : List (Text × Value)}
    {s : Settings} (h : load start path given = .ok s) : ∃ layers, Accepted layers s := by
  obtain ⟨layers, hread⟩ := load_read h
  exact ⟨layers, read_accepted hread⟩

end FleetProbe.Settings
