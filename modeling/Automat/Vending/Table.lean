import Automat.Builder
import Automat.Vending.Actions
import Automat.Vending.Config

/-!
The vending machine: its transition table, and the table put together with its actions.
-/

namespace Automat.Vending

def machineId : String := "slipperVendingMachine"

/-- A sale: start, choose and pay, wait for the item, wait for the change. -/
def definition (config : Config) : Definition State Kind where
  id := machineId
  initial := .idle
  nodes :=
    [{ state := .idle
       entry := ["resetContext"]
       rules := [(.start, { target := some .selecting })] },
     { state := .selecting
       rules :=
         [(.selectItem, { target := none, actions := ["assignSelectedItem"] }),
          (.insertMoney, { target := none, actions := ["accumulateInsertedMoney"] }),
          (.purchase, { target := some .dispensing, guard := some "canPurchase" }),
          (.cancel, { target := some .returning, actions := ["computeRefund"] })] },
     { state := .dispensing
       entry := ["displayDispensing"]
       after := some
         { delay := config.dispenseDelay, target := .returning,
           actions := ["computeChange", "dispenseItem"] } },
     { state := .returning
       entry := ["displayReturning"]
       after := some
         { delay := config.returnDelay, target := .idle, actions := ["dispenseChange"] } }]

variable {W : Type}

/-- A table with the default actions and guards. -/
def builderOf (definition : Definition State Kind) (context : Option Context)
    (clock : W → Timestamp) (display : Display W) (config : Config) :
    Builder State Kind Event Context W :=
  let builder : Builder State Kind Event Context W :=
    { definition := definition
      context := context
      historyLimit := config.run.historyLimit
      clock := clock }
  (builder.withActions (defaultActions display)).withGuards defaultGuards

/-- The vending machine in the making, so that actions may still be replaced. -/
def builder (clock : W → Timestamp) (display : Display W) (config : Config) :
    Builder State Kind Event Context W :=
  builderOf (definition config) (some .empty) clock display config

def machine (clock : W → Timestamp) (display : Display W) (config : Config) :
    Except BuildError (Machine State Kind Event Context W) :=
  (builder clock display config).build

end Automat.Vending
