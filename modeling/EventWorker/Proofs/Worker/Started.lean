import EventWorker.Proofs.Steps
import EventWorker.Worker.Startup

/-!
# Starts that come to their end

Starting a worker is one long step. `Started` has a premise for each step of it, with the
surroundings between them, so that what a start has done can be read off one by one, and a start
can be put together from what each of its steps does.

Results:
1. `Plan.started`: what a start has done that came to its end.
2. `Plan.Started.start`: such a start comes to its end.
-/

namespace EventWorker

variable {ω α : Type}

namespace Plan

variable {p : Plan ω} {w w' : ω} {k : Worker ω}

theorem under_ended {code : Code} {a : Act ω α} {v : α}
    (h : (under code a).outcome w = (.ok v, w')) : a.outcome w = (.ok v, w') :=
  Step.mapError_ended h

theorem under_ok {code : Code} {a : Act ω α} {v : α} (h : a.outcome w = (.ok v, w')) :
    (under code a).outcome w = (.ok v, w') := by
  rw [under, Step.outcome_mapError, h]
  rfl

/-- A start that comes to its end, step by step. -/
inductive Started (p : Plan ω) (w : ω) : Worker ω → ω → Prop
  | intro {logger : Logger} {output : Output ω} {input : Input ω} {database : Database ω}
      {ledger : Manager ω} {table : PipelineTable ω} {ciphers : List (String × Cipher)}
      {integrities : String → Option IntegrityFunction} {codecs : String → Option Codec}
      {w₁ w₂ w₃ w₄ w₅ w₆ w₇ w₈ w₉ w₁₀ : ω} :
      p.config.fragments.check = .ok () →
      p.logger = .ok logger →
      choose p.output? Provider.output p.supply.output p.config.output.name = .ok output →
      (output.setUp p.config.output.line).outcome w = (.ok (), w₁) →
      choose p.input? Provider.input p.supply.input p.config.input.name = .ok input →
      (input.setUp p.config.input.line).outcome w₁ = (.ok (), w₂) →
      choose p.database? Provider.database p.supply.database p.config.database.name =
        .ok database →
      (database.setUp p.config.database.line).outcome w₂ = (.ok (), w₃) →
      choose p.ledger? Provider.ledger p.supply.ledger p.config.ledger.name = .ok ledger →
      (ledger.setUp p.config.ledger.line).outcome w₃ = (.ok (), w₄) →
      p.table.outcome w₄ = (.ok table, w₅) →
      p.ciphers = .ok ciphers →
      Provider.integrities p.config.integrity.name = .ok integrities →
      Provider.codecs p.config.encoding.name = .ok codecs →
      (connectAll table.distinct).outcome w₅ = (.ok (), w₆) →
      (output.connect.retrying (output.retry w₆).retries).outcome w₆ = (.ok (), w₇) →
      (input.connect.retrying (input.retry w₇).retries).outcome w₇ = (.ok (), w₈) →
      (database.connect.retrying
        (RetryPolicy.ofSettings (Settings.parse p.config.database.line)).retries).outcome w₈ =
          (.ok (), w₉) →
      (ledger.connect.retrying
        (RetryPolicy.ofSettings (Settings.parse p.config.ledger.line)).retries).outcome w₉ =
          (.ok (), w₁₀) →
      Started p w
        { dispatcher :=
            { output, table
              env :=
                { services := p.supply.services
                  database? := some database
                  ledger? := some ledger
                  providers :=
                    { ciphers? := some ciphers, logger? := some logger
                      integrities? := some integrities, codecs? := some codecs } } }
          input, database, ledger, hasQueue := p.hasQueue } w₁₀

theorem started (h : p.start.outcome w = (.ok k, w')) : Started p w k w' := by
  unfold start at h
  obtain ⟨_, valid, h⟩ := Step.ofResult_bind_ended h
  obtain ⟨logger, logs, h⟩ := Step.ofResult_bind_ended h
  obtain ⟨output, output', h⟩ := Step.ofResult_bind_ended h
  obtain ⟨_, w₁, outputUp, h⟩ := Step.bind_ended h
  obtain ⟨input, input', h⟩ := Step.ofResult_bind_ended h
  obtain ⟨_, w₂, inputUp, h⟩ := Step.bind_ended h
  obtain ⟨database, database', h⟩ := Step.ofResult_bind_ended h
  obtain ⟨_, w₃, databaseUp, h⟩ := Step.bind_ended h
  obtain ⟨ledger, ledger', h⟩ := Step.ofResult_bind_ended h
  obtain ⟨_, w₄, ledgerUp, h⟩ := Step.bind_ended h
  obtain ⟨table, w₅, built, h⟩ := Step.bind_ended h
  obtain ⟨ciphers, ciphers', h⟩ := Step.ofResult_bind_ended h
  obtain ⟨integrities, integrities', h⟩ := Step.ofResult_bind_ended h
  obtain ⟨codecs, codecs', h⟩ := Step.ofResult_bind_ended h
  obtain ⟨_, w₆, connected, h⟩ := Step.bind_ended h
  obtain ⟨_, _, read, h⟩ := Step.bind_ended h
  cases read
  obtain ⟨_, w₇, outputOn, h⟩ := Step.bind_ended h
  obtain ⟨_, _, read, h⟩ := Step.bind_ended h
  cases read
  obtain ⟨_, w₈, inputOn, h⟩ := Step.bind_ended h
  obtain ⟨_, w₉, databaseOn, h⟩ := Step.bind_ended h
  obtain ⟨_, w₁₀, ledgerOn, h⟩ := Step.bind_ended h
  cases h
  exact .intro valid logs output' (under_ended outputUp) input' (under_ended inputUp) database'
    (under_ended databaseUp) ledger' (under_ended ledgerUp) built ciphers' integrities' codecs'
    connected (under_ended outputOn) (under_ended inputOn) (under_ended databaseOn)
    (under_ended ledgerOn)

theorem Started.start (h : Started p w k w') : p.start.outcome w = (.ok k, w') := by
  cases h with
  | intro valid logs output' outputUp input' inputUp database' databaseUp ledger' ledgerUp built
      ciphers' integrities' codecs' connected outputOn inputOn databaseOn ledgerOn =>
    unfold Plan.start
    rw [Step.ofResult_bind_ok valid, Step.ofResult_bind_ok logs, Step.ofResult_bind_ok output',
      Step.outcome_bind_ok (under_ok outputUp), Step.ofResult_bind_ok input',
      Step.outcome_bind_ok (under_ok inputUp), Step.ofResult_bind_ok database',
      Step.outcome_bind_ok (under_ok databaseUp), Step.ofResult_bind_ok ledger',
      Step.outcome_bind_ok (under_ok ledgerUp), Step.outcome_bind_ok built,
      Step.ofResult_bind_ok ciphers', Step.ofResult_bind_ok integrities',
      Step.ofResult_bind_ok codecs', Step.outcome_bind_ok connected]
    refine (Step.outcome_bind_ok (Step.outcome_ofState _ _)).trans ?_
    refine (Step.outcome_bind_ok (under_ok outputOn)).trans ?_
    refine (Step.outcome_bind_ok (Step.outcome_ofState _ _)).trans ?_
    refine (Step.outcome_bind_ok (under_ok inputOn)).trans ?_
    refine (Step.outcome_bind_ok (under_ok databaseOn)).trans ?_
    exact Step.outcome_bind_ok (under_ok ledgerOn)

end Plan

end EventWorker
