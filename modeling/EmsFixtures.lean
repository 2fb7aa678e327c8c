import EmsFixtures.Lib.Runs
import EmsFixtures.Lib.Panic
import EmsFixtures.Lib.Maps
import EmsFixtures.Lib.F64
import EmsFixtures.Lib.Float32
import EmsFixtures.Lib.ExtRat
import EmsFixtures.Lib.Taper
import EmsFixtures.Lib.Json
import EmsFixtures.Lib.EnvVars
import EmsFixtures.Lib.Decimal
import EmsFixtures.Lib.Split
import EmsFixtures.Lib.Words
import EmsFixtures.Lib.Sawtooth
import EmsFixtures.Lib.Driven
import EmsFixtures.Lib.Walk
import EmsFixtures.Lib.Cyclic
import EmsFixtures.Lib.Window
import EmsFixtures.Lib.Ber
import EmsFixtures.Lib.Locks
import EmsFixtures.Lib.TwoPhase
import EmsFixtures.Modbus.RackRegisters
import EmsFixtures.Modbus.Battery
import EmsFixtures.Modbus.Server
import EmsFixtures.Modbus.DrivenRegisters
import EmsFixtures.Modbus.ExactRack
import EmsFixtures.Modbus.Energy
import EmsFixtures.Modbus.Limits
import EmsFixtures.Modbus.ConfiguredRack
import EmsFixtures.Modbus.Poi
import EmsFixtures.Modbus.Steps
import EmsFixtures.Modbus.Envelope
import EmsFixtures.Modbus.OperatingState
import EmsFixtures.Modbus.TickSizes
import EmsFixtures.Modbus.BootImage
import EmsFixtures.Modbus.EnergyRegister
import EmsFixtures.Modbus.RackPower
import EmsFixtures.Modbus.Device
import EmsFixtures.Modbus.DeviceRegisters
import EmsFixtures.Modbus.KwhDelivered
import EmsFixtures.Modbus.PoiRegister
import EmsFixtures.Modbus.RackDevice
import EmsFixtures.Modbus.Site
import EmsFixtures.Modbus.OrderedRacks
import EmsFixtures.Redfish.GpuProcessors
import EmsFixtures.Redfish.GpuChassis
import EmsFixtures.Redfish.CapRange
import EmsFixtures.Redfish.Throttle
import EmsFixtures.Dnp3.Points
import EmsFixtures.Snmp.Oid
import EmsFixtures.Snmp.InitialValues
import EmsFixtures.Snmp.Agent
import EmsFixtures.Snmp.Readings
import EmsFixtures.Snmp.DrivenOids
import EmsFixtures.Snmp.TwoViews
import EmsFixtures.Snmp.OneMeaning
import EmsFixtures.Snmp.DottedOid
import EmsFixtures.Snmp.PowerBalance
import EmsFixtures.Snmp.OutsideWrites
import EmsFixtures.Snmp.TickOverflow
import EmsFixtures.Snmp.Divisors
import EmsFixtures.Snmp.LoadFollow
import EmsFixtures.Snmp.Response
import EmsFixtures.Snmp.Serving
import EmsFixtures.Snmp.OidWalk
import EmsFixtures.Snmp.Usm
import EmsFixtures.Snmp.V3
import EmsFixtures.Snmp.KeyStretch
import EmsFixtures.Snmp.Wire
import EmsFixtures.Snmp.VersionPeek
import EmsFixtures.Snmp.SignedReply
import EmsFixtures.Snmp.AuthGate
import EmsFixtures.Snmp.ShortSalt
import EmsFixtures.Snmp.TagWindow
import EmsFixtures.Snmp.Manager
import EmsFixtures.Snmp.Session
import EmsFixtures.Snmp.History
import EmsFixtures.Snmp.Tasks
import EmsFixtures.Snmp.Sections
import EmsFixtures.Snmp.AtomicBatch
import EmsFixtures.Modbus.RackList
import EmsFixtures.Bacnet.Responder
import EmsFixtures.Bacnet.PresentValue
import EmsFixtures.Bacnet.Network
import EmsFixtures.Bacnet.Bands
import EmsFixtures.Capping
import EmsFixtures.Campus
