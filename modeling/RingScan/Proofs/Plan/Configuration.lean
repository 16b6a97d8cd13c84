import RingScan.Proofs.Plan.Points

set_option autoImplicit false

/-! # Loading a configuration

A configuration that holds nothing but texts says of every setting what the text under its name
says, and without a text, or with an empty one, what counts if nothing is set. What a context says
is what its configuration says (`Context.ofOptions_texts`), a configuration can be loaded just if it
is usable, and all others are refused with an error of their own, but for one slip: a time limit
that is read well may be more than a duration can hold (`ofOptions_texts_ends`). -/

namespace RingScan

/-! ## Results of several steps -/

theorem bind_eq_error {ε α β : Type} {result : Except ε α} {f : α → Except ε β} {e : ε} :
    (result >>= f) = .error e ↔ result = .error e ∨ ∃ a, result = .ok a ∧ f a = .error e := by
  cases result <;> simp [bind, Except.bind]

/-- Nothing is left of a text just if all of it is blank. -/
theorem Text.stripString_eq_empty_iff (s : String) :
    Text.stripString s = "" ↔ Text.isBlankString s = true := by
  rw [Text.stripString, Text.strip, String.ofList_eq_empty_iff, List.reverse_eq_nil_iff,
    List.dropWhile_eq_nil_iff, Text.isBlankString, List.all_eq_true]
  constructor
  · intro h c hc
    rw [← List.takeWhile_append_dropWhile (p := Text.isBlank) (l := s.toList), List.mem_append] at hc
    rcases hc with hc | hc
    · exact List.mem_takeWhile_imp hc
    · exact h c (List.mem_reverse.2 hc)
  · intro h c hc
    exact h c ((List.dropWhile_sublist _).subset (List.mem_reverse.1 hc))

namespace Config

variable {texts : List (String × String)}

/-! ## Configurations of texts -/

/-- The configuration that holds texts only. -/
def Options.ofTexts (texts : List (String × String)) : Options :=
  texts.map fun (key, text) => (key, .str text)

/-- The text that is set under a name; the empty text counts as not set. -/
def setText? (texts : List (String × String)) (key : String) : Option String :=
  (texts.lookup key).filter fun text => !text.isEmpty

/-- The whole number that a configuration says a setting has: what its text says, and without a text
    what counts if nothing is set. -/
def integer? (texts : List (String × String)) (s : Setting Int) : Option Int :=
  match setText? texts s.key with
  | none => some s.default
  | some text => (Integer.read (Text.strip text.toList)).toOption

/-- The same for a duration. -/
def duration? (texts : List (String × String)) (s : Setting Duration) : Option Duration :=
  match setText? texts s.key with
  | none => some s.default
  | some text =>
      (Duration.readMillis text.toList).toOption.bind fun millis =>
        Duration.ofMicros? (1000 * millis)

/-- Whether a setting has a text that is read as a number of milliseconds, and a duration cannot
    hold so many. -/
def Overflows (texts : List (String × String)) (s : Setting Duration) : Prop :=
  ∃ text millis, setText? texts s.key = some text ∧
    Duration.readMillis text.toList = .ok millis ∧ Duration.ofMicros? (1000 * millis) = none

theorem Options.find?_ofTexts (texts : List (String × String)) (key : String) :
    (Options.ofTexts texts).find? key = (texts.lookup key).map .str := by
  induction texts with
  | nil => rfl
  | cons entry rest ih =>
    obtain ⟨name, text⟩ := entry
    by_cases h : name = key
    · subst h
      simp [Options.ofTexts, Options.find?, Value.lookup?]
    · have hne : (key == name) = false := by simpa using Ne.symm h
      simpa [Options.ofTexts, Options.find?, Value.lookup?, h, List.lookup_cons, hne] using ih

theorem Options.raw?_ofTexts (texts : List (String × String)) (key : String) :
    (Options.ofTexts texts).raw? key = (setText? texts key).map .str := by
  rw [Options.raw?, Options.find?_ofTexts, setText?]
  cases texts.lookup key with
  | none => rfl
  | some text => by_cases h : text = "" <;> simp [Options.isUnset, h]

theorem Options.get_ofTexts {α : Type} [SettingType α] (texts : List (String × String))
    (s : Setting α) :
    (Options.ofTexts texts).get s =
      (setText? texts s.key).elim (.ok s.default) fun text => SettingType.read (.str text) := by
  rw [Options.get, Options.raw?_ofTexts]
  cases setText? texts s.key <;> rfl

end Config

namespace Plan

open Config (Options Setting integer? duration? setText? Overflows)

variable {texts : List (String × String)}

theorem readSetting_texts {s : Settings.OptionalText} (h : s.default = none) :
    readSetting (.ofTexts texts) s = .ok (setText? texts s.key) := by
  rw [readSetting, Options.get_ofTexts, h]
  cases setText? texts s.key with
  | none => rfl
  | some text =>
    simp [Config.SettingType.read, Config.asText, Value.displayText, Value.display]

theorem readSetting_integer_eq_ok {s : Setting Int} {n : Int} :
    readSetting (.ofTexts texts) s = .ok n ↔ integer? texts s = some n := by
  rw [readSetting, Options.get_ofTexts, integer?]
  cases setText? texts s.key with
  | none => simp
  | some text =>
    simp only [Option.elim_some, Config.SettingType.read, Config.asInteger]
    cases Integer.read (Text.strip text.toList) <;> simp [Except.mapError, Except.toOption]

/-- A whole number of any size is a whole number. -/
theorem readSetting_integer_ne_fault {s : Setting Int} {f : Fault} :
    readSetting (.ofTexts texts) s ≠ .error (.fault f) := by
  rw [readSetting, Options.get_ofTexts]
  cases setText? texts s.key with
  | none => simp
  | some text =>
    simp only [Option.elim_some, Config.SettingType.read, Config.asInteger]
    cases Integer.read (Text.strip text.toList) <;> simp [Except.mapError]

theorem readSetting_duration_eq_ok {s : Setting Duration} {d : Duration} :
    readSetting (.ofTexts texts) s = .ok d ↔ duration? texts s = some d := by
  rw [readSetting, Options.get_ofTexts, duration?]
  cases setText? texts s.key with
  | none => simp
  | some text =>
    simp only [Option.elim_some, Config.SettingType.read, Config.asDuration]
    cases Duration.readMillis text.toList with
    | error e => simp [Except.toOption]
    | ok millis =>
      cases h : Duration.ofMicros? (1000 * millis) <;> simp [Config.ofMicros, Except.toOption, h]

/-- Not every number of milliseconds is a duration. -/
theorem readSetting_duration_eq_fault {s : Setting Duration} {f : Fault} :
    readSetting (.ofTexts texts) s = .error (.fault f) ↔ f = .overflow ∧ Overflows texts s := by
  rw [readSetting, Options.get_ofTexts, Overflows]
  cases setText? texts s.key with
  | none => simp
  | some text =>
    simp only [Option.elim_some, Config.SettingType.read, Config.asDuration]
    cases hread : Duration.readMillis text.toList with
    | error e => simp [hread]
    | ok millis =>
      cases h : Duration.ofMicros? (1000 * millis) <;>
        simp [Config.ofMicros, hread, h, eq_comm]

/-! ## Drafts -/

/-- The bounds that are set. -/
def boundsOf (texts : List (String × String)) : KeyRestriction where
  startKey? := setText? texts Settings.startKey.key
  endKey? := setText? texts Settings.endKey.key
  startToken? := setText? texts Settings.startToken.key
  endToken? := setText? texts Settings.endToken.key

theorem readRestriction_texts (texts : List (String × String)) :
    readRestriction (.ofTexts texts) =
      .ok (if boundsOf texts = {} then none else some (boundsOf texts)) := by
  rw [readRestriction, readSetting_texts rfl, readSetting_texts rfl, readSetting_texts rfl,
    readSetting_texts rfl]
  rfl

/-- The partitioner that is named. -/
def partitioner? (texts : List (String × String)) : Option Partitioner :=
  (setText? texts Settings.partitioner.key).bind fun name => (Partitioner.ofName name).toOption

/-- The draft in a configuration of texts, once the numbers and the durations are read. -/
def draftOf (texts : List (String × String)) (p : Partitioner)
    (rpcPort splitSize maxThreads maxRetries : Int) (connectTimeout requestTimeout : Duration) :
    Draft where
  keyspace? := setText? texts Settings.keyspace.key
  table? := setText? texts Settings.table.key
  seeds := splitSeeds ((setText? texts Settings.initialAddress.key).getD "")
  partitioner := p
  rpcPort := rpcPort
  splitSize := splitSize
  maxThreads := maxThreads
  maxRetries := maxRetries
  keyRestriction? := if boundsOf texts = {} then none else some (boundsOf texts)
  username? := setText? texts Settings.username.key
  password? := setText? texts Settings.password.key
  connectTimeout := connectTimeout
  requestTimeout := requestTimeout

theorem Draft.ofOptions_unnamed (h : partitioner? texts = none) :
    ∃ e, Draft.ofOptions (.ofTexts texts) = .error (.configuration e) := by
  rw [Draft.ofOptions, readSetting_texts rfl, readSetting_texts rfl]
  cases hname : setText? texts Settings.partitioner.key with
  | none => exact ⟨.noPartitioner, rfl⟩
  | some name =>
    rw [partitioner?, hname, Option.bind_some] at h
    cases hp : Partitioner.ofName name with
    | ok p => simp [hp, Except.toOption] at h
    | error e =>
      refine ⟨.badValue e.message, ?_⟩
      simp only [bind, Except.bind, readSetting_texts (s := Settings.keyspace) rfl,
        readSetting_texts (s := Settings.table) rfl, hp]

theorem Draft.ofOptions_named {p : Partitioner} (h : partitioner? texts = some p) :
    Draft.ofOptions (.ofTexts texts) = do
      let rpcPort ← readSetting (.ofTexts texts) Settings.rpcPort
      let splitSize ← readSetting (.ofTexts texts) Settings.splitSize
      let maxThreads ← readSetting (.ofTexts texts) Settings.maxThreads
      let maxRetries ← readSetting (.ofTexts texts) Settings.maxRetries
      let connectTimeout ← readSetting (.ofTexts texts) Settings.connectTimeout
      let requestTimeout ← readSetting (.ofTexts texts) Settings.requestTimeout
      return draftOf texts p rpcPort splitSize maxThreads maxRetries connectTimeout
        requestTimeout := by
  obtain ⟨name, hname, hp⟩ := Option.bind_eq_some_iff.1 h
  cases hread : Partitioner.ofName name with
  | error e => simp [hread, Except.toOption] at hp
  | ok q =>
    obtain rfl : q = p := by simpa [hread, Except.toOption] using hp
    rw [Draft.ofOptions, readSetting_texts rfl, readSetting_texts rfl, hname]
    simp only [bind, Except.bind, readSetting_texts (s := Settings.keyspace) rfl,
      readSetting_texts (s := Settings.table) rfl, hread,
      readSetting_texts (s := Settings.username) rfl,
      readSetting_texts (s := Settings.password) rfl, readRestriction_texts]
    rfl

/-- Whether a configuration names a partitioner, all its whole numbers are read, and a time limit is
    read and is more than a duration can hold. -/
structure LimitOverflows (texts : List (String × String)) : Prop where
  partitioner : ∃ p, partitioner? texts = some p
  rpcPort : ∃ n, integer? texts Settings.rpcPort = some n
  splitSize : ∃ n, integer? texts Settings.splitSize = some n
  maxThreads : ∃ n, integer? texts Settings.maxThreads = some n
  maxRetries : ∃ n, integer? texts Settings.maxRetries = some n
  limit : Overflows texts Settings.connectTimeout ∨
    (∃ d, duration? texts Settings.connectTimeout = some d) ∧
      Overflows texts Settings.requestTimeout

theorem Draft.ofOptions_eq_fault {f : Fault} :
    Draft.ofOptions (.ofTexts texts) = .error (.fault f) ↔
      f = .overflow ∧ LimitOverflows texts := by
  cases hp : partitioner? texts with
  | none =>
    obtain ⟨e, he⟩ := Draft.ofOptions_unnamed hp
    simp only [he, Except.error.injEq, reduceCtorEq, false_iff]
    rintro ⟨-, h⟩
    obtain ⟨p, hsome⟩ := h.partitioner
    simp [hp] at hsome
  | some p =>
    simp only [Draft.ofOptions_named hp, bind_eq_error, readSetting_integer_ne_fault,
      readSetting_integer_eq_ok, readSetting_duration_eq_ok, readSetting_duration_eq_fault,
      false_or]
    constructor
    · rintro ⟨port, hport, size, hsize, threads, hthreads, retries, hretries,
        ⟨rfl, h⟩ | ⟨connect, hconnect, ⟨rfl, h⟩ | ⟨_, _, h⟩⟩⟩
      · exact ⟨rfl, ⟨p, hp⟩, ⟨port, hport⟩, ⟨size, hsize⟩, ⟨threads, hthreads⟩,
          ⟨retries, hretries⟩, .inl h⟩
      · exact ⟨rfl, ⟨p, hp⟩, ⟨port, hport⟩, ⟨size, hsize⟩, ⟨threads, hthreads⟩,
          ⟨retries, hretries⟩, .inr ⟨⟨connect, hconnect⟩, h⟩⟩
      · cases h
    · rintro ⟨rfl, -, ⟨port, hport⟩, ⟨size, hsize⟩, ⟨threads, hthreads⟩, ⟨retries, hretries⟩,
        h | ⟨⟨connect, hconnect⟩, h⟩⟩
      · exact ⟨port, hport, size, hsize, threads, hthreads, retries, hretries, .inl ⟨rfl, h⟩⟩
      · exact ⟨port, hport, size, hsize, threads, hthreads, retries, hretries,
          .inr ⟨connect, hconnect, .inl ⟨rfl, h⟩⟩⟩

theorem Draft.ofOptions_eq_ok {d : Draft} :
    Draft.ofOptions (.ofTexts texts) = .ok d ↔
      partitioner? texts = some d.partitioner ∧
        integer? texts Settings.rpcPort = some d.rpcPort ∧
        integer? texts Settings.splitSize = some d.splitSize ∧
        integer? texts Settings.maxThreads = some d.maxThreads ∧
        integer? texts Settings.maxRetries = some d.maxRetries ∧
        duration? texts Settings.connectTimeout = some d.connectTimeout ∧
        duration? texts Settings.requestTimeout = some d.requestTimeout ∧
        draftOf texts d.partitioner d.rpcPort d.splitSize d.maxThreads d.maxRetries
          d.connectTimeout d.requestTimeout = d := by
  cases hp : partitioner? texts with
  | none =>
    obtain ⟨e, he⟩ := Draft.ofOptions_unnamed hp
    simp [he]
  | some p =>
    simp only [Draft.ofOptions_named hp, bind_eq_ok, readSetting_integer_eq_ok,
      readSetting_duration_eq_ok]
    constructor
    · rintro ⟨port, hport, size, hsize, threads, hthreads, retries, hretries, connect, hconnect,
        request, hrequest, hd⟩
      obtain rfl := Except.ok.inj hd
      exact ⟨rfl, hport, hsize, hthreads, hretries, hconnect, hrequest, rfl⟩
    · rintro ⟨hname, hport, hsize, hthreads, hretries, hconnect, hrequest, hd⟩
      obtain rfl := Option.some.inj hname
      exact ⟨_, hport, _, hsize, _, hthreads, _, hretries, _, hconnect, _, hrequest,
        congrArg Except.ok hd⟩

/-! ## Contexts -/

theorem some_getD_of_ne {text? : Option String} (h : text?.getD "" ≠ "") :
    some (text?.getD "") = text? := by
  cases text? with
  | none => exact absurd rfl h
  | some text => rfl

/-- A draft passes the rules just if it is the draft of a context. -/
theorem Draft.check_eq_ok {d : Draft} {c : Context} : d.check = .ok c ↔ c.toDraft = d := by
  constructor
  · intro h
    unfold Draft.check at h
    split_ifs at h with hk ht hs hn hthreads hretries
    obtain rfl := Except.ok.inj h
    simp only [Context.toDraft, some_getD_of_ne hk, some_getD_of_ne ht,
      Int.toNat_of_nonneg (Int.not_lt.1 hthreads), Int.toNat_of_nonneg (Int.not_lt.1 hretries),
      Int.toNat_of_nonneg (Int.le_of_lt (Int.not_le.1 hn))]
  · rintro rfl
    exact Draft.check_toDraft c

/-- The pieces of a text between commas that are not blank, without the blanks around them. -/
theorem splitSeeds_eq (addresses : String) :
    splitSeeds addresses =
      ((addresses.splitOn ",").filter fun piece => !Text.isBlankString piece).map
        Text.stripString := by
  rw [splitSeeds, List.filter_map]
  refine congrArg (List.map Text.stripString) (List.filter_congr fun piece _ => ?_)
  rw [Function.comp_apply, Bool.not_inj_iff, Bool.eq_iff_iff, String.isEmpty_iff,
    Text.stripString_eq_empty_iff]

variable {c : Context}

/-- Whether a context says what a configuration of texts says. -/
structure Context.Says (texts : List (String × String)) (c : Context) : Prop where
  keyspace : setText? texts Settings.keyspace.key = some c.keyspace
  table : setText? texts Settings.table.key = some c.table
  /-- The seeds are the pieces of the address that are not blank, in their order. -/
  seeds : c.seeds =
    ((((setText? texts Settings.initialAddress.key).getD "").splitOn ",").filter
      fun piece => !Text.isBlankString piece).map Text.stripString
  partitioner : partitioner? texts = some c.partitioner
  rpcPort : integer? texts Settings.rpcPort = some (c.rpcPort : Int)
  splitSize : integer? texts Settings.splitSize = some (c.splitSize : Int)
  maxThreads : integer? texts Settings.maxThreads = some (c.maxThreads : Int)
  maxRetries : integer? texts Settings.maxRetries = some (c.maxRetries : Int)
  /-- Nothing is restricted just if no bound is set. -/
  unrestricted : c.keyRestriction? = none ↔
    setText? texts Settings.startKey.key = none ∧ setText? texts Settings.endKey.key = none ∧
      setText? texts Settings.startToken.key = none ∧ setText? texts Settings.endToken.key = none
  restricted : ∀ r, c.keyRestriction? = some r →
    r = ⟨setText? texts Settings.startKey.key, setText? texts Settings.endKey.key,
      setText? texts Settings.startToken.key, setText? texts Settings.endToken.key⟩
  username : c.username? = setText? texts Settings.username.key
  password : c.password? = setText? texts Settings.password.key
  connectTimeout : duration? texts Settings.connectTimeout = some c.connectTimeout
  requestTimeout : duration? texts Settings.requestTimeout = some c.requestTimeout

theorem restriction_eq_iff (texts : List (String × String)) {restriction? : Option KeyRestriction} :
    (if boundsOf texts = {} then none else some (boundsOf texts)) = restriction? ↔
      (restriction? = none ↔
        setText? texts Settings.startKey.key = none ∧ setText? texts Settings.endKey.key = none ∧
          setText? texts Settings.startToken.key = none ∧
          setText? texts Settings.endToken.key = none) ∧
        ∀ r, restriction? = some r → r = boundsOf texts := by
  have hempty : boundsOf texts = {} ↔
      setText? texts Settings.startKey.key = none ∧ setText? texts Settings.endKey.key = none ∧
        setText? texts Settings.startToken.key = none ∧
        setText? texts Settings.endToken.key = none := by
    simp [boundsOf]
  rw [← hempty]
  split_ifs with h <;> cases restriction? <;> simp [h, eq_comm]

/-- What a context says is what its configuration says. -/
theorem Context.ofOptions_texts : Context.ofOptions (.ofTexts texts) = .ok c ↔ c.Says texts := by
  have hdraft : Context.ofOptions (.ofTexts texts) = .ok c ↔
      Draft.ofOptions (.ofTexts texts) = .ok c.toDraft := by
    rw [Context.ofOptions, bind_eq_ok]
    constructor
    · rintro ⟨d, hd, h⟩
      cases hcheck : d.check with
      | error e => simp [hcheck, Except.mapError] at h
      | ok made =>
        obtain rfl : made = c := by simpa [hcheck, Except.mapError] using h
        rwa [Draft.check_eq_ok.1 hcheck]
    · intro hd
      exact ⟨c.toDraft, hd, by rw [Draft.check_toDraft, Except.mapError]⟩
  rw [hdraft, Draft.ofOptions_eq_ok]
  constructor
  · rintro ⟨hname, hport, hsize, hthreads, hretries, hconnect, hrequest, hd⟩
    simp only [draftOf, Context.toDraft, Draft.mk.injEq, splitSeeds_eq] at hd
    obtain ⟨hkeyspace, htable, hseeds, -, -, -, -, -, hrestriction, husername, hpassword, -, -⟩ := hd
    obtain ⟨hunrestricted, hrestricted⟩ := (restriction_eq_iff texts).1 hrestriction
    exact ⟨hkeyspace, htable, hseeds.symm, hname, hport, hsize, hthreads, hretries, hunrestricted,
      hrestricted, husername.symm, hpassword.symm, hconnect, hrequest⟩
  · intro h
    refine ⟨h.partitioner, h.rpcPort, h.splitSize, h.maxThreads, h.maxRetries, h.connectTimeout,
      h.requestTimeout, ?_⟩
    simp only [draftOf, Context.toDraft, splitSeeds_eq, h.keyspace, h.table, h.seeds, h.username,
      h.password, (restriction_eq_iff texts).2 ⟨h.unrestricted, h.restricted⟩]

/-- Whether a configuration of texts has all that a context needs: a table, a seed, a partitioner,
    and numbers and durations that can be read and are not too small. -/
structure IsUsable (texts : List (String × String)) : Prop where
  keyspace : (setText? texts Settings.keyspace.key).isSome
  table : (setText? texts Settings.table.key).isSome
  seeds : ∃ piece ∈ ((setText? texts Settings.initialAddress.key).getD "").splitOn ",",
    Text.isBlankString piece = false
  partitioner : ∃ p, partitioner? texts = some p
  rpcPort : ∃ n, integer? texts Settings.rpcPort = some n
  splitSize : ∃ n, integer? texts Settings.splitSize = some n ∧ 0 < n
  maxThreads : ∃ n, integer? texts Settings.maxThreads = some n ∧ 0 ≤ n
  maxRetries : ∃ n, integer? texts Settings.maxRetries = some n ∧ 0 ≤ n
  connectTimeout : ∃ d, duration? texts Settings.connectTimeout = some d
  requestTimeout : ∃ d, duration? texts Settings.requestTimeout = some d

theorem ne_empty_of_setText? {key text : String} (h : setText? texts key = some text) :
    text ≠ "" := by
  obtain ⟨-, hne⟩ := Option.filter_eq_some_iff.1 h
  simpa using hne

theorem Context.Says.isUsable (h : c.Says texts) : IsUsable texts where
  keyspace := by rw [h.keyspace, Option.isSome_some]
  table := by rw [h.table, Option.isSome_some]
  seeds := by
    obtain ⟨seed, hseed⟩ := List.exists_mem_of_ne_nil _ c.seeds_ne
    rw [h.seeds, List.mem_map] at hseed
    obtain ⟨piece, hpiece, -⟩ := hseed
    obtain ⟨hmem, hblank⟩ := List.mem_filter.1 hpiece
    exact ⟨piece, hmem, by simpa using hblank⟩
  partitioner := ⟨c.partitioner, h.partitioner⟩
  rpcPort := ⟨c.rpcPort, h.rpcPort⟩
  splitSize := ⟨c.splitSize, h.splitSize, by exact_mod_cast c.splitSize_pos⟩
  maxThreads := ⟨c.maxThreads, h.maxThreads, Int.natCast_nonneg _⟩
  maxRetries := ⟨c.maxRetries, h.maxRetries, Int.natCast_nonneg _⟩
  connectTimeout := ⟨c.connectTimeout, h.connectTimeout⟩
  requestTimeout := ⟨c.requestTimeout, h.requestTimeout⟩

theorem IsUsable.exists_says (h : IsUsable texts) : ∃ c : Context, c.Says texts := by
  obtain ⟨keyspace, hkeyspace⟩ := Option.isSome_iff_exists.1 h.keyspace
  obtain ⟨table, htable⟩ := Option.isSome_iff_exists.1 h.table
  obtain ⟨piece, hpiece, hblank⟩ := h.seeds
  obtain ⟨p, hp⟩ := h.partitioner
  obtain ⟨port, hport⟩ := h.rpcPort
  obtain ⟨size, hsize, hpos⟩ := h.splitSize
  obtain ⟨threads, hthreads, hthreads0⟩ := h.maxThreads
  obtain ⟨retries, hretries, hretries0⟩ := h.maxRetries
  obtain ⟨connect, hconnect⟩ := h.connectTimeout
  obtain ⟨request, hrequest⟩ := h.requestTimeout
  lift size to ℕ using Int.le_of_lt hpos
  lift threads to ℕ using hthreads0
  lift retries to ℕ using hretries0
  have hrestriction := (restriction_eq_iff texts).1 rfl
  have hseeds : Text.stripString piece ∈
      ((((setText? texts Settings.initialAddress.key).getD "").splitOn ",").filter
        fun piece => !Text.isBlankString piece).map Text.stripString :=
    List.mem_map_of_mem (List.mem_filter.2 ⟨hpiece, by simpa using hblank⟩)
  exact ⟨{
    keyspace := keyspace
    table := table
    seeds := _
    partitioner := p
    rpcPort := port
    splitSize := size
    maxThreads := threads
    maxRetries := retries
    keyRestriction? := _
    username? := setText? texts Settings.username.key
    password? := setText? texts Settings.password.key
    connectTimeout := connect
    requestTimeout := request
    keyspace_ne := ne_empty_of_setText? hkeyspace
    table_ne := ne_empty_of_setText? htable
    seeds_ne := List.ne_nil_of_mem hseeds
    splitSize_pos := by exact_mod_cast hpos },
    hkeyspace, htable, rfl, hp, hport, hsize, hthreads, hretries, hrestriction.1, hrestriction.2,
    rfl, rfl, hconnect, hrequest⟩

theorem Context.ofOptions_eq_fault {f : Fault} :
    Context.ofOptions (.ofTexts texts) = .error (.fault f) ↔
      f = .overflow ∧ LimitOverflows texts := by
  rw [← Draft.ofOptions_eq_fault, Context.ofOptions, bind_eq_error]
  constructor
  · rintro (h | ⟨d, -, h⟩)
    · exact h
    · cases hcheck : d.check <;> simp [hcheck, Except.mapError] at h
  · exact .inl

/-- **How loading ends.** A configuration of texts is loaded just if it is usable, and the context
    says what the texts say: the trimmed pieces of the address that are not blank are the seeds,
    what is unset or empty has its default, and nothing is restricted just if no bound is set. All
    others are refused with an error of their own, unless a time limit is read that a duration
    cannot hold: then, if nothing before it is wrong, loading ends with a bare fault. -/
theorem ofOptions_texts_ends (texts : List (String × String)) :
    ((∃ c, Context.ofOptions (.ofTexts texts) = .ok c) ↔ IsUsable texts) ∧
      (∀ c, Context.ofOptions (.ofTexts texts) = .ok c ↔ c.Says texts) ∧
      ((∃ e, Context.ofOptions (.ofTexts texts) = .error (.configuration e)) ↔
        ¬ IsUsable texts ∧ ¬ LimitOverflows texts) ∧
      ∀ f, Context.ofOptions (.ofTexts texts) = .error (.fault f) ↔
        f = .overflow ∧ LimitOverflows texts := by
  have husable : (∃ c, Context.ofOptions (.ofTexts texts) = .ok c) ↔ IsUsable texts := by
    simp only [Context.ofOptions_texts]
    exact ⟨fun ⟨_, h⟩ => h.isUsable, IsUsable.exists_says⟩
  refine ⟨husable, fun _ => Context.ofOptions_texts, ?_, fun _ => Context.ofOptions_eq_fault⟩
  have hfault : Context.ofOptions (.ofTexts texts) = .error (.fault .overflow) ↔
      LimitOverflows texts := by
    rw [Context.ofOptions_eq_fault, and_iff_right rfl]
  rw [← husable, ← hfault]
  rcases hend : Context.ofOptions (.ofTexts texts) with (e | f) | c
  · simp
  · obtain ⟨rfl, -⟩ := Context.ofOptions_eq_fault.1 hend
    simp
  · simp

/-- A configuration whose only trouble is that the time limit for connecting is too long. -/
def overlongTexts : List (String × String) :=
  [("input.keyspace", "ks"), ("input.table", "users"), ("input.initial-address", "10.0.0.1"),
    ("input.partitioner", "murmur3"), ("input.connect-timeout", "99999999999h")]

/-- The limit is read, and loading ends with a bare fault. -/
theorem overlongTexts_fault :
    Duration.readMillis "99999999999h".toList = .ok 359999999996400000 ∧
      Context.ofOptions (.ofTexts overlongTexts) = .error (.fault .overflow) := by
  exact ⟨by decide +kernel, rfl⟩

end Plan
end RingScan
