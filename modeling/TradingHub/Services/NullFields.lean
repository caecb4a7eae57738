import TradingHub.Services.Requests

set_option autoImplicit false

/-! # Nulls in order payloads

ccxt sends explicit nulls as well as leaving keys out. `_parse_order` reads its twelve keys with
four idioms that agree on a missing key and differ on a null: a default in `get` is not used, an
enum constructor raises, `str` prints it. Three of the keys are read so: `id`, `symbol`, `side`. -/

namespace TradingHub

open Library CcxtAdapter

/-- The key, missing where it was null. -/
def Field.dropNull {α : Type} : Field α → Field α
  | .null => .absent
  | f => f

@[simp] theorem Field.get_dropNull {α : Type} (f : Field α) : f.dropNull.get = f.get := by
  cases f <;> rfl

/-- A default is used for a key dropped, and was not used for a null. -/
theorem Field.getOr_dropNull {α : Type} {dflt : α} {f : Field α} (h : f ≠ .null) :
    f.dropNull.getOr dflt = f.getOr dflt := by
  cases f with
  | absent => rfl
  | null => exact absurd rfl h
  | value a => rfl

/-- The payload without its nulls, those of the fee dictionary included. -/
def RawOrder.dropNulls (raw : RawOrder) : RawOrder :=
  { id := raw.id.dropNull
    symbol := raw.symbol.dropNull
    side := raw.side.dropNull
    type := raw.type.dropNull
    status := raw.status.dropNull
    amount := raw.amount.dropNull
    filled := raw.filled.dropNull
    price := raw.price.dropNull
    average := raw.average.dropNull
    timestamp := raw.timestamp.dropNull
    clientOrderId := raw.clientOrderId.dropNull
    fee := match raw.fee with
      | .value cost => .value cost.dropNull
      | f => f.dropNull }

/-- A side, where there is one, is one of the two. -/
def RawOrder.WellFormed (raw : RawOrder) : Prop :=
  ∀ side, raw.side = .value side → side = "buy" ∨ side = "sell"

/-- The payload is parsed like the one with its nulled keys missing, into an order that the
    trading service can store. -/
def NullsAreMissing (raw : RawOrder) (symbol : String) : Prop :=
  ∃ order, parseOrder raw symbol = .ok order ∧ parseOrder raw.dropNulls symbol = .ok order ∧
    ∀ (env : Env) (userId : String) (account : ExchangeAccount) (w : World),
      env.fault .insertOrder = none → (∀ o ∈ w.db.orders, o.id ≠ env.recordId) →
      ∃ record w', TradingService.persist env userId account order w = (.ok record, w') ∧
        w'.db.orders = w.db.orders ++ [record]

/-! ## The parts of a parse -/

/-- A payload is parsed exactly if its side is. -/
theorem parseOrder_eq_ok {raw : RawOrder} {symbol : String} {order : Order (Option String)} :
    parseOrder raw symbol = .ok order ↔ ∃ side, orderSide (raw.side.getOr "buy") = .ok side ∧
      order = { id := (raw.id.getOr "").getD "None"
                symbol := raw.symbol.getOr symbol
                side
                type := orderType (raw.type.getOr "limit")
                status := statusOf (raw.status.getOr "")
                amount := dec0 raw.amount.get
                filled := dec0 raw.filled.get
                price := dec raw.price.get
                average := dec raw.average.get
                timestamp := raw.timestamp.get
                clientOrderId := raw.clientOrderId.get
                fee := match raw.fee with
                  | .value cost => dec0 cost.get
                  | _ => 0
                isPaper := false } := by
  unfold parseOrder
  cases hside : orderSide (raw.side.getOr "buy") with
  | error e => simp [bind, Except.bind]
  | ok side =>
    simp only [bind, Except.bind, pure, Except.pure, Except.ok.injEq, exists_eq_left']
    exact eq_comm

/-- A null type means the default type. -/
theorem orderType_dropNull (f : Field String) :
    orderType (f.dropNull.getOr "limit") = orderType (f.getOr "limit") := by
  cases f <;> rfl

/-- A null status means the default status. -/
theorem statusOf_dropNull (f : Field String) :
    statusOf (f.dropNull.getOr "") = statusOf (f.getOr "") := by
  cases f <;> rfl

theorem fee_dropNull (fee : Field (Field RawNumber)) :
    (match (match fee with
        | .value cost => .value cost.dropNull
        | f => f.dropNull : Field (Field RawNumber)) with
      | .value cost => dec0 cost.get
      | _ => 0)
    = match fee with
      | .value cost => dec0 cost.get
      | _ => 0 := by
  cases fee with
  | absent => rfl
  | null => rfl
  | value cost => exact congrArg dec0 (Field.get_dropNull cost)

theorem orderSide_isOk {raw : RawOrder} (hwf : raw.WellFormed) (hside : raw.side ≠ .null) :
    ∃ side, orderSide (raw.side.getOr "buy") = .ok side := by
  cases hraw : raw.side with
  | absent => exact ⟨.buy, rfl⟩
  | null => exact absurd hraw hside
  | value side =>
    rcases hwf side hraw with rfl | rfl
    · exact ⟨.buy, rfl⟩
    · exact ⟨.sell, rfl⟩

/-- An order with a symbol is stored, under an identifier that is new. -/
theorem TradingService.persist_of_symbol {env : Env} {order : Order (Option String)}
    {symbol : String} (hsymbol : order.symbol = some symbol) (userId : String)
    (account : ExchangeAccount) {w : World} (hfault : env.fault .insertOrder = none)
    (hfresh : ∀ o ∈ w.db.orders, o.id ≠ env.recordId) :
    ∃ record w', persist env userId account order w = (.ok record, w') ∧
      w'.db.orders = w.db.orders ++ [record] := by
  have hany : ¬ w.db.orders.any (fun o => o.id = (recordOf env userId account symbol order).id) := by
    rw [List.any_eq_true]
    rintro ⟨o, ho, hid⟩
    exact hfresh o ho (of_decide_eq_true hid)
  refine ⟨recordOf env userId account symbol order, { w with db := { w.db with
    orders := w.db.orders ++ [recordOf env userId account symbol order] } }, ?_, rfl⟩
  unfold persist
  rw [Act.bind_of_ok ((execute_eq_ok (u := ())).2 ⟨hfault, rfl⟩)]
  simp only [hsymbol]
  rw [Act.bind_of_ok (show (Act.read : Service World) w = (.ok w, w) from rfl), if_neg hany]
  rfl

/-- A well-formed payload, each key of which may be missing or null, is parsed like the one with
    the nulled keys missing, into an order that can be stored, exactly if its `id`, `symbol` and
    `side` are not null. -/
theorem nulls_parsed_as_missing_iff (raw : RawOrder) (hwf : raw.WellFormed) (symbol : String) :
    NullsAreMissing raw symbol ↔ raw.id ≠ .null ∧ raw.symbol ≠ .null ∧ raw.side ≠ .null := by
  constructor
  · rintro ⟨order, hparse, hdropped, hstored⟩
    obtain ⟨side, hside, rfl⟩ := parseOrder_eq_ok.1 hparse
    obtain ⟨side', -, hsame⟩ := parseOrder_eq_ok.1 hdropped
    refine ⟨fun hid => ?_, fun hsymbol => ?_, fun hnull => ?_⟩
    · have h := congrArg Order.id hsame
      simp [hid, Field.getOr, RawOrder.dropNulls, Field.dropNull] at h
    · -- Storing the order needs a symbol, whatever else it meets.
      obtain ⟨record, w', hrun, -⟩ := hstored (Env.quiet 0 "") ""
        ⟨"", "", "", "", "", true, none, none, none⟩ (World.boot {} ⟨[], [], [], []⟩) rfl
        (by simp [World.boot])
      obtain ⟨s, hs, -⟩ := TradingService.persist_ok hrun
      exact absurd hs (by simp [hsymbol, Field.getOr])
    · rw [hnull] at hside
      exact absurd hside (by simp [Field.getOr, orderSide])
  · rintro ⟨hid, hsymbol, hnull⟩
    obtain ⟨side, hside⟩ := orderSide_isOk hwf hnull
    refine ⟨_, parseOrder_eq_ok.2 ⟨side, hside, rfl⟩, parseOrder_eq_ok.2 ⟨side, ?_, ?_⟩, ?_⟩
    · exact (congrArg orderSide (Field.getOr_dropNull hnull)).trans hside
    · simp only [RawOrder.dropNulls, Field.getOr_dropNull hid, Field.getOr_dropNull hsymbol,
        orderType_dropNull, statusOf_dropNull, Field.get_dropNull, fee_dropNull]
    · intro env userId account w hfault hfresh
      obtain ⟨s, hs⟩ : ∃ s, raw.symbol.getOr symbol = some s := by
        cases hraw : raw.symbol with
        | absent => exact ⟨symbol, rfl⟩
        | null => exact absurd hraw hsymbol
        | value s => exact ⟨s, rfl⟩
      exact TradingService.persist_of_symbol hs userId account hfault hfresh

/-- What an exchange reports of an order it has accepted, with nulls in the keys it does not fill. -/
def RawOrder.sample (id symbol side : Field String) : RawOrder where
  id := id
  symbol := symbol
  side := side
  type := .null
  status := .value "open"
  amount := .value (.num 1)
  filled := .null
  price := .null
  average := .absent
  timestamp := .null
  clientOrderId := .null
  fee := .null

theorem nulls_parsed_as_missing_sample :
    NullsAreMissing (.sample (.value "7") .absent (.value "sell")) "BTC/USDT" :=
  (nulls_parsed_as_missing_iff (.sample (.value "7") .absent (.value "sell"))
    (by simp [RawOrder.WellFormed, RawOrder.sample]) "BTC/USDT").2
    (by simp [RawOrder.sample])

/-- A null side raises where a missing one means buy; a null id is printed; a null symbol is kept
    where a missing one means the symbol of the request. -/
theorem null_fields_misparsed :
    (RawOrder.sample (.value "7") (.value "BTC/USDT") .null).WellFormed ∧
      ¬ NullsAreMissing (.sample (.value "7") (.value "BTC/USDT") .null) "BTC/USDT" ∧
      parseOrder (.sample (.value "7") (.value "BTC/USDT") .null) "BTC/USDT"
        = .error (.external "ValueError" "None") ∧
      ((parseOrder (.sample .null .absent .absent) "BTC/USDT").map Order.id).toOption
        = some "None" ∧
      ((parseOrder (.sample .absent .absent .absent) "BTC/USDT").map Order.id).toOption
        = some "" ∧
      ((parseOrder (.sample .absent .null .absent) "BTC/USDT").map Order.symbol).toOption
        = some none ∧
      ((parseOrder (.sample .absent .absent .absent) "BTC/USDT").map Order.symbol).toOption
        = some (some "BTC/USDT") := by
  refine ⟨by simp [RawOrder.WellFormed, RawOrder.sample], ?_, rfl, rfl, rfl, rfl, rfl⟩
  rintro ⟨order, hparse, -⟩
  exact absurd hparse (by simp [parseOrder, RawOrder.sample, Field.getOr, orderSide, bind,
    Except.bind])

end TradingHub
