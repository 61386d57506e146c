import PahoMqtt.Packets.Stream
import PahoMqtt.Packets.Length
import PahoMqtt.Packets.Fields
import PahoMqtt.Packets.FixedHeader
import PahoMqtt.Packets.ReadPacket
import PahoMqtt.Packets.Accept
import PahoMqtt.Keepalive.Model
import PahoMqtt.Keepalive.Probe
import PahoMqtt.Keepalive.Bound
import PahoMqtt.Store.MemoryStore
import PahoMqtt.Store.OrderedMemoryStore
import PahoMqtt.Store.Replay
import PahoMqtt.Store.Contract
import PahoMqtt.Store.FileStore
import PahoMqtt.Store.Refinement
import PahoMqtt.Store.Simulation
import PahoMqtt.Store.Directory
