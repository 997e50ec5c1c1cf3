import BessEmulator.Scalar
import BessEmulator.State
import BessEmulator.Alarms
import BessEmulator.Sweep
import BessEmulator.Traces
import BessEmulator.Traits
import BessEmulator.EventLog
import BessEmulator.Kernel
import BessEmulator.Commands
import BessEmulator.Init
import BessEmulator.Tick
import BessEmulator.Runs
import BessEmulator.Polyline
import BessEmulator.Cell
import BessEmulator.Bms
import BessEmulator.Pcs
import BessEmulator.Thermal
import BessEmulator.Gw01
import BessEmulator.Racks
import BessEmulator.Trip
import BessEmulator.Ledger
import BessEmulator.Dispatch
import BessEmulator.Meters
import BessEmulator.Parabola
import BessEmulator.Capability
import BessEmulator.SocWindow
import BessEmulator.RackHeat
import BessEmulator.Losses
import BessEmulator.Reversal
import BessEmulator.EdgeLog
import BessEmulator.Picture
import BessEmulator.PictureCommands
import BessEmulator.PictureRuns
import BessEmulator.Door
import BessEmulator.Replay
import BessEmulator.Bisect
import BessEmulator.Schema
import BessEmulator.Player
import BessEmulator.Checkpoint
import BessEmulator.SignalMap
import BessEmulator.Taps
import BessEmulator.Lying
import BessEmulator.PlantTask
import BessEmulator.Modbus
import BessEmulator.Setpoint
import BessEmulator.Publisher
import BessEmulator.Cadence
import BessEmulator.Outbox
import BessEmulator.Accounting
import BessEmulator.EventFeed
import BessEmulator.OutboxOrder
import BessEmulator.Batches
import BessEmulator.AlarmMap
import BessEmulator.Retained
import BessEmulator.Stories
import BessEmulator.Duration
import BessEmulator.Calendar
import BessEmulator.TargetPath
import BessEmulator.Validate
import BessEmulator.Accepted
import BessEmulator.Offsets
import BessEmulator.Spacing
import BessEmulator.Dwell
import BessEmulator.Hysteresis
import BessEmulator.History
import BessEmulator.Latched
import BessEmulator.Staggered
import BessEmulator.Delivery
import BessEmulator.Marks
import BessEmulator.Played
import BessEmulator.GapResume
import BessEmulator.SpeedLoad
import BessEmulator.Reraise
import BessEmulator.Conversion
import BessEmulator.Bleeding
import BessEmulator.HeatBalance
import BessEmulator.CivilDates
import BessEmulator.ReferenceHours
import BessEmulator.DaySlots
import BessEmulator.PriceLookup
import BessEmulator.Executed
import BessEmulator.DurationGrammar
import BessEmulator.Spelling
import BessEmulator.Utf8
import BessEmulator.StartStamps
import BessEmulator.DateFields
import BessEmulator.Wire
import BessEmulator.PriceArtifact
import BessEmulator.WeatherArtifact
import BessEmulator.PointTables
import BessEmulator.Footprint
import BessEmulator.RegisterBanks
import BessEmulator.RegisterMap
import BessEmulator.LyingRegisters
import BessEmulator.Filing
import BessEmulator.StudySeries
import BessEmulator.MonthlyBooks
import BessEmulator.Journal
import BessEmulator.ResetButton
import BessEmulator.Tiling
import BessEmulator.SolarRows
import BessEmulator.SolarEnergy
import BessEmulator.Derating
import BessEmulator.Primitive
import BessEmulator.OcvIntegral
import BessEmulator.XorShift
import BessEmulator.Draws
import BessEmulator.LongestRun
import BessEmulator.StationRows
import BessEmulator.GapFill
import BessEmulator.CompiledWeather
import BessEmulator.CyclicLine
import BessEmulator.WeatherYear
import BessEmulator.WeatherReplay
import BessEmulator.Viewer
import BessEmulator.ViewerRuns
import BessEmulator.ViewerPace
import BessEmulator.Headless
import BessEmulator.AlarmList
import BessEmulator.AlarmBooks
import BessEmulator.Periods
import BessEmulator.PeriodBooks
import BessEmulator.AlarmGate
import BessEmulator.SmardBlocks
import BessEmulator.PriceCompile
import BessEmulator.ChartText
import BessEmulator.MarketYear
import BessEmulator.Tallies
import BessEmulator.HvacBooks
import BessEmulator.RecordDrift
import BessEmulator.Occurrence
import BessEmulator.Publication
import BessEmulator.PublishedRecord
import BessEmulator.PublishedDocument
import BessEmulator.EvenWalk
import BessEmulator.FirstBest
import BessEmulator.Stops
import BessEmulator.StopsShown
import BessEmulator.WarmestWeek
